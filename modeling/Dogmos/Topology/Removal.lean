import Dogmos.Topology.Edges

/-!
# Removing a slot from a topology

`joined_removeSlot`: when the edges of a slot are removed, the rest stays
well-formed, whatever may have edges in the slot from then on.  The partners of
the slot forget it one after the other (`Forgotten`), which takes every edge of
the slot out of the row at its other end.

Some operations remove all edges of a slot and insert those of one kind again;
`joined_reconnectHeat` and `joined_reconnectGas` cover the second half.
-/

namespace Dogmos

open PackedTopology

/-! ## Forgetting a slot -/

/-- A row without the entry for a slot. -/
def withoutSlot (slot : UInt32) (neighbors : List TopologyNeighbor) : List TopologyNeighbor :=
  neighbors.eraseP fun neighbor => neighbor.handle.slot = slot

theorem removeNeighborSlot_pack {neighbors : List TopologyNeighbor} (slot : UInt32)
    (h : neighbors.length ≤ maxTurfNeighbors) :
    removeNeighborSlot (pack neighbors) slot = pack (withoutSlot slot neighbors) :=
  removeFirst_pack _ h

theorem length_withoutSlot {neighbors : List TopologyNeighbor} {slot : UInt32}
    (h : ∃ neighbor ∈ neighbors, neighbor.handle.slot = slot) :
    (withoutSlot slot neighbors).length + 1 = neighbors.length := by
  obtain ⟨neighbor, hn, heq⟩ := h
  have hpos : 0 < neighbors.length := List.length_pos_of_mem hn
  unfold withoutSlot
  rw [List.length_eraseP_of_mem hn (by simpa using heq)]
  omega

theorem withoutSlot_of_notMem {neighbors : List TopologyNeighbor} {slot : UInt32}
    (h : ∀ neighbor ∈ neighbors, neighbor.handle.slot ≠ slot) :
    withoutSlot slot neighbors = neighbors :=
  List.eraseP_of_forall_not (by simpa using h)

/-- What a topology is after a list of partners forgot a slot. -/
structure Forgotten (topology updated : PackedTopology) (slot : UInt32) (heat : Bool)
    (partners : List TopologyNeighbor) : Prop where
  packed : updated.Packed
  length : updated.slots.length = topology.slots.length
  neighbors : ∀ kind other, updated.neighbors kind other =
    if kind = heat ∧ ∃ partner ∈ partners, partner.handle.slot.toNat = other then
      withoutSlot slot (topology.neighbors kind other)
    else topology.neighbors kind other
  edgeCount : updated.edgeCount = topology.edgeCount
  degreeSum : ∀ kind, updated.degreeSum kind + (if kind = heat then partners.length else 0) =
    topology.degreeSum kind

theorem forgotten_forgetSlot {slot : UInt32} {heat : Bool} (partners : List TopologyNeighbor) :
    ∀ {topology : PackedTopology}, topology.Packed →
      (partners.map fun partner => partner.handle.slot.toNat).Nodup →
      (∀ partner ∈ partners, ∃ neighbor ∈ topology.neighbors heat partner.handle.slot.toNat,
        neighbor.handle.slot = slot) →
      Forgotten topology (topology.forgetSlot slot heat partners) slot heat partners := by
  induction partners with
  | nil =>
    intro topology hpacked _ _
    refine ⟨hpacked, rfl, ?_, rfl, ?_⟩
    · intro kind other
      simp [forgetSlot]
    · intro kind
      simp [forgetSlot]
  | cons partner rest ih =>
    intro topology hpacked hnodup hmem
    rw [List.map_cons, List.nodup_cons] at hnodup
    obtain ⟨hfresh, hnodup⟩ := hnodup
    obtain ⟨neighbor, hn, hslot⟩ := hmem partner (by simp)
    have hlen := lt_of_mem_neighbors hn
    have htidy := hpacked.tidy heat partner.handle.slot.toNat
    have hrow := removeNeighborSlot_pack slot htidy.bounded
    have hpacked' : (topology.updateRow partner.handle.slot.toNat heat
        fun row => removeNeighborSlot row slot).Packed :=
      packed_updateRow (g := withoutSlot slot) hpacked hrow (htidy.sublist List.eraseP_sublist)
    have hneighbors := neighbors_updateRow (f := fun row => removeNeighborSlot row slot)
      (g := withoutSlot slot) hpacked hlen hrow
    have hsum := degreeSum_updateRow (f := fun row => removeNeighborSlot row slot)
      (g := withoutSlot slot) hpacked hlen hrow
    have hrest : ∀ other ∈ rest, ∃ neighbor ∈ (topology.updateRow partner.handle.slot.toNat heat
        fun row => removeNeighborSlot row slot).neighbors heat other.handle.slot.toNat,
        neighbor.handle.slot = slot := by
      intro other ho
      have hne : other.handle.slot.toNat ≠ partner.handle.slot.toNat := by
        intro heq
        exact hfresh (List.mem_map.2 ⟨other, ho, heq⟩)
      rw [hneighbors, if_neg (fun h => hne h.1)]
      exact hmem other (by simp [ho])
    have ih := ih hpacked' hnodup hrest
    refine ⟨ih.packed, ?_, ?_, ih.edgeCount, ?_⟩
    · show (forgetSlot _ _ _ rest).slots.length = _
      rw [ih.length, length_updateRow]
    · intro kind other
      show (forgetSlot _ _ _ rest).neighbors kind other = _
      rw [ih.neighbors, hneighbors]
      by_cases hkind : kind = heat
      · subst hkind
        by_cases hother : other = partner.handle.slot.toNat
        · subst hother
          have hnot : ¬∃ p ∈ rest, p.handle.slot.toNat = partner.handle.slot.toNat := by
            rintro ⟨p, hp, heq⟩
            exact hfresh (List.mem_map.2 ⟨p, hp, heq⟩)
          simp [hnot]
        · simp [hother, Ne.symm hother]
      · simp [hkind]
    · intro kind
      show (forgetSlot _ _ _ rest).degreeSum kind + _ = _
      have hih := ih.degreeSum kind
      have hsum := hsum kind
      have hlength := length_withoutSlot ⟨neighbor, hn, hslot⟩
      by_cases hkind : kind = heat
      · simp only [if_pos hkind, List.length_cons] at hih hsum ⊢
        omega
      · simp only [if_neg hkind] at hih hsum ⊢
        omega

/-! ## Clearing the rows of a slot -/

/-- A topology with the rows of a slot emptied. -/
def cleared (topology : PackedTopology) (slot : Nat) : PackedTopology :=
  { topology with slots := topology.slots.set slot TopologySlot.vacant }

theorem set_eq_modify {α : Type} (l : List α) (n : Nat) (a : α) :
    l.set n a = l.modify n fun _ => a := by
  induction l generalizing n with
  | nil => simp
  | cons b t ih =>
    cases n with
    | zero => rfl
    | succ m => rw [List.set_cons_succ, List.modify_succ_cons, ih]

theorem row_vacant (heat : Bool) : TopologySlot.vacant.row heat = pack [] := by
  cases heat <;> rfl

theorem packed_cleared {topology : PackedTopology} (h : topology.Packed) (slot : Nat) :
    (cleared topology slot).Packed := by
  intro entry hentry heat
  rcases List.mem_or_eq_of_mem_set hentry with hold | rfl
  · exact h entry hold heat
  · rw [row_vacant]
    exact packed_pack tidy_nil

theorem neighbors_cleared (topology : PackedTopology) (slot : Nat) (heat : Bool) (other : Nat) :
    (cleared topology slot).neighbors heat other =
      if other = slot then [] else topology.neighbors heat other := by
  rw [neighbors_eq, neighbors_eq]
  unfold cleared
  by_cases hother : other = slot
  · subst hother
    rw [if_pos rfl]
    by_cases hlen : other < topology.slots.length
    · rw [List.getElem?_set_self hlen, Option.map_some, row_vacant, occupied_pack]
      rfl
    · rw [List.getElem?_eq_none (by rw [List.length_set]; omega)]
      rfl
  · rw [if_neg hother, List.getElem?_set_ne (Ne.symm hother)]

theorem degreeSum_cleared (topology : PackedTopology) (slot : Nat) (heat : Bool) :
    (cleared topology slot).degreeSum heat + (topology.neighbors heat slot).length =
      topology.degreeSum heat := by
  unfold PackedTopology.degreeSum cleared
  rw [neighbors_eq, set_eq_modify]
  rcases hentry : topology.slots[slot]? with _ | entry
  · rw [List.modify_eq_self (by simpa using hentry)]
    rfl
  · have hsum := sum_map_modify (fun entry : TopologySlot => (entry.row heat).occupied.length)
      (fun _ => TopologySlot.vacant) topology.slots hentry
    rw [row_vacant, occupied_pack] at hsum
    exact hsum

/-! ## Removing a slot -/

section

variable {ok ok' : Occupancy} {topology : PackedTopology} {slot : UInt32}

/-- A row that names a slot is the row of a partner of the slot. -/
theorem Joined.partner (h : Joined ok topology) {heat : Bool} {other : UInt32}
    {neighbor : TopologyNeighbor} (hn : neighbor ∈ topology.neighbors heat other.toNat)
    (hslot : neighbor.handle.slot = slot) :
    ∃ partner ∈ topology.neighbors heat slot.toNat, partner.handle.slot.toNat = other.toNat := by
  obtain ⟨generation, hmem⟩ := h.mirrored heat other neighbor hn
  rw [hslot] at hmem
  exact ⟨_, hmem, rfl⟩

/-- The rows of a well-formed topology have the slots of 32-bit handles. -/
theorem Joined.exists_slot (h : Joined ok topology) {heat : Bool} {other : Nat}
    {neighbor : TopologyNeighbor} (hn : neighbor ∈ topology.neighbors heat other) :
    ∃ slot : UInt32, slot.toNat = other := by
  have hlen := lt_of_mem_neighbors hn
  have hbound := h.bounded
  exact ⟨UInt32.ofNat other, UInt32.toNat_ofNat_of_lt' (by show other < 2 ^ 32; omega)⟩

theorem Joined.nodup_slots (h : Joined ok topology) (hok : ok.Functional) (heat : Bool)
    (slot : Nat) :
    ((topology.neighbors heat slot).map fun partner => partner.handle.slot.toNat).Nodup := by
  refine List.Nodup.map_on ?_ (h.packed.tidy heat slot).nodup
  intro a ha b hb hab
  exact h.eq_of_slot hok ha hb (UInt32.toNat_inj.1 hab)

/-- The partners of a slot forget it in one kind of row. -/
theorem forgotten_of_partners (hok : ok.Functional) (h : Joined ok topology) (heat : Bool)
    (updated : PackedTopology) (hpacked : updated.Packed)
    (hsame : ∀ other, other ≠ slot.toNat →
      updated.neighbors heat other = topology.neighbors heat other) :
    Forgotten updated
      (updated.forgetSlot slot heat (topology.neighbors heat slot.toNat)) slot heat
      (topology.neighbors heat slot.toNat) := by
  refine forgotten_forgetSlot _ hpacked (h.nodup_slots hok heat slot.toNat) ?_
  intro partner hp
  obtain ⟨generation, hmem⟩ := h.mirrored heat slot partner hp
  rw [hsame _ (h.irreflexive heat _ partner hp)]
  exact ⟨_, hmem, rfl⟩

/-- Every row without its entry for a slot, and the slot's own rows emptied. -/
structure Removed (topology updated : PackedTopology) (slot : UInt32) : Prop where
  packed : updated.Packed
  length : updated.slots.length = topology.slots.length
  neighbors : ∀ heat other, updated.neighbors heat other =
    if other = slot.toNat then [] else withoutSlot slot (topology.neighbors heat other)
  counted : ∀ heat, updated.degreeSum heat = 2 * updated.edgeCount heat

/-- The row of a turf that is no partner of a slot does not change without it. -/
theorem Joined.withoutSlot_eq (h : Joined ok topology) {heat : Bool} {other : Nat}
    (hno : ¬∃ partner ∈ topology.neighbors heat slot.toNat, partner.handle.slot.toNat = other) :
    withoutSlot slot (topology.neighbors heat other) = topology.neighbors heat other := by
  refine withoutSlot_of_notMem ?_
  intro neighbor hn hslot
  obtain ⟨other, rfl⟩ := h.exists_slot hn
  exact hno (h.partner hn hslot)

theorem removed_removeSlot (hok : ok.Functional) (h : Joined ok topology) (slot : UInt32) :
    Removed topology (topology.removeSlot slot) slot := by
  unfold removeSlot
  dsimp only
  by_cases hempty : (topology.neighbors false slot.toNat).length = 0 ∧
      (topology.neighbors true slot.toNat).length = 0
  · rw [if_pos hempty]
    have hnone : ∀ heat, topology.neighbors heat slot.toNat = [] := by
      intro heat
      cases heat
      · exact List.length_eq_zero_iff.1 hempty.1
      · exact List.length_eq_zero_iff.1 hempty.2
    refine ⟨h.packed, rfl, ?_, h.counted⟩
    intro heat other
    by_cases hother : other = slot.toNat
    · rw [if_pos hother, hother, hnone]
    · rw [if_neg hother, h.withoutSlot_eq]
      rw [hnone]
      simp
  · rw [if_neg hempty]
    show Removed topology
      (((((cleared topology slot.toNat).forgetSlot slot false
        (topology.neighbors false slot.toNat)).forgetSlot slot true
          (topology.neighbors true slot.toNat)).countEdges false _).countEdges true _).revised slot
    have hcleared := packed_cleared h.packed slot.toNat
    have hgas := forgotten_of_partners hok h false (cleared topology slot.toNat) hcleared
      (fun other hother => by rw [neighbors_cleared, if_neg hother])
    have hheat := forgotten_of_partners hok h true _ hgas.packed
      (fun other hother => by
        rw [hgas.neighbors, if_neg (by simp), neighbors_cleared, if_neg hother])
    refine ⟨?_, ?_, ?_, ?_⟩
    · intro entry hentry
      rw [slots_revised, slots_countEdges, slots_countEdges] at hentry
      exact hheat.packed entry hentry
    · rw [slots_revised, slots_countEdges, slots_countEdges]
      refine hheat.length.trans (hgas.length.trans ?_)
      exact List.length_set
    · intro heat other
      rw [neighbors_revised, neighbors_countEdges, neighbors_countEdges]
      refine (hheat.neighbors heat other).trans ?_
      rw [hgas.neighbors, neighbors_cleared]
      by_cases hother : other = slot.toNat
      · rw [if_pos hother, if_pos hother]
        simp [withoutSlot]
      · rw [if_neg hother, if_neg hother]
        -- the partners are those of the kind at hand, and the other rows do not name the slot
        by_cases hpartner : ∃ p ∈ topology.neighbors heat slot.toNat, p.handle.slot.toNat = other
        · cases heat <;> simp [hpartner]
        · rw [h.withoutSlot_eq hpartner]
          cases heat <;> simp [hpartner]
    · intro heat
      have hsum := degreeSum_cleared topology slot.toNat heat
      have hcount := h.counted heat
      have hgasSum := hgas.degreeSum heat
      have hheatSum := hheat.degreeSum heat
      have hgasCount := congrFun hgas.edgeCount heat
      have hheatCount := congrFun hheat.edgeCount heat
      have hkept : (cleared topology slot.toNat).edgeCount heat = topology.edgeCount heat := rfl
      rw [degreeSum_revised, degreeSum_countEdges, degreeSum_countEdges, edgeCount_revised,
        edgeCount_countEdges, edgeCount_countEdges]
      cases heat
      · simp only [reduceCtorEq, reduceIte] at hgasSum hheatSum ⊢
        omega
      · simp only [reduceCtorEq, reduceIte] at hgasSum hheatSum ⊢
        omega

/-- **Removing a slot keeps the rest of a topology well-formed**, whatever may have edges in the
slot afterwards. -/
theorem joined_removeSlot (hok : ok.Functional) (h : Joined ok topology)
    (hrest : ∀ heat handle, handle.slot ≠ slot → ok heat handle → ok' heat handle) :
    Joined ok' (topology.removeSlot slot) := by
  have hremoved := removed_removeSlot hok h slot
  have hmem : ∀ {heat other neighbor}, neighbor ∈ (topology.removeSlot slot).neighbors heat other →
      other ≠ slot.toNat ∧ neighbor ∈ topology.neighbors heat other ∧
        neighbor.handle.slot ≠ slot := by
    intro heat other neighbor hn
    rw [hremoved.neighbors] at hn
    by_cases hother : other = slot.toNat
    · simp [hother] at hn
    · rw [if_neg hother] at hn
      have hkept := (mem_eraseP (h.packed.tidy heat other).nodup ?_).1 hn
      · exact ⟨hother, hkept.1, by simpa using hkept.2⟩
      · intro a ha b hb hpa hpb
        exact h.eq_of_slot hok ha hb ((of_decide_eq_true hpa).trans (of_decide_eq_true hpb).symm)
  refine ⟨hremoved.packed, ?_, ?_, ?_, ?_, hremoved.counted⟩
  · rw [hremoved.length]
    exact h.bounded
  · intro heat other neighbor hn
    obtain ⟨-, hold, hslot⟩ := hmem hn
    exact hrest heat _ hslot (h.live heat other neighbor hold)
  · intro heat other neighbor hn
    exact h.irreflexive heat other neighbor (hmem hn).2.1
  · intro heat other neighbor hn
    obtain ⟨hother, hold, hslot⟩ := hmem hn
    obtain ⟨generation, hmirror⟩ := h.mirrored heat other neighbor hold
    refine ⟨generation, ?_⟩
    rw [hremoved.neighbors, if_neg (fun heq => hslot (UInt32.toNat_inj.1 heq))]
    refine (mem_eraseP (h.packed.tidy heat _).nodup ?_).2 ⟨hmirror, ?_⟩
    · intro a ha b hb hpa hpb
      exact h.eq_of_slot hok ha hb ((of_decide_eq_true hpa).trans (of_decide_eq_true hpb).symm)
    · simpa using fun heq : other = slot => hother (congrArg UInt32.toNat heq)

end

end Dogmos
