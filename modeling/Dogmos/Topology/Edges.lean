import Dogmos.Topology.Wellformed

/-!
# Edge operations keep a topology well-formed

Connecting, disconnecting and flagging an edge rewrite the rows of both of its
ends (`Ends`).  Each operation either fails and leaves the edges alone or treats
both rows alike, so what holds of every edge holds afterwards.
-/

namespace Dogmos

open PackedTopology

/-! ## Rewriting the rows of both ends -/

/-- The rows of two different slots rewritten as lists. -/
structure Ends (topology updated : PackedTopology) (heat : Bool) (left right : UInt32)
    (atLeft atRight : List TopologyNeighbor) : Prop where
  packed : updated.Packed
  length : updated.slots.length = topology.slots.length
  neighbors : ∀ kind slot, updated.neighbors kind slot =
    if slot = left.toNat ∧ kind = heat then atLeft
    else if slot = right.toNat ∧ kind = heat then atRight
    else topology.neighbors kind slot
  edgeCount : updated.edgeCount = topology.edgeCount
  degreeSum : ∀ kind, updated.degreeSum kind +
      (if kind = heat then (topology.neighbors heat left.toNat).length +
        (topology.neighbors heat right.toNat).length else 0) =
    topology.degreeSum kind + if kind = heat then atLeft.length + atRight.length else 0

theorem ends_updateRow {topology : PackedTopology} {heat : Bool} {left right : UInt32}
    {f p : Row → Row} {g q : List TopologyNeighbor → List TopologyNeighbor}
    (h : topology.Packed) (hne : left ≠ right)
    (hleft : left.toNat < topology.slots.length) (hright : right.toNat < topology.slots.length)
    (hf : f (pack (topology.neighbors heat left.toNat)) =
      pack (g (topology.neighbors heat left.toNat)))
    (hp : p (pack (topology.neighbors heat right.toNat)) =
      pack (q (topology.neighbors heat right.toNat)))
    (hg : Tidy (g (topology.neighbors heat left.toNat)))
    (hq : Tidy (q (topology.neighbors heat right.toNat))) :
    Ends topology
      ((topology.updateRow left.toNat heat f).updateRow right.toNat heat p).revised heat left right
      (g (topology.neighbors heat left.toNat)) (q (topology.neighbors heat right.toNat)) := by
  have hslots : right.toNat ≠ left.toNat := fun heq => hne (UInt32.toNat_inj.1 heq).symm
  have hpacked := packed_updateRow h hf hg
  have hsame : (topology.updateRow left.toNat heat f).neighbors heat right.toNat =
      topology.neighbors heat right.toNat := by
    rw [neighbors_updateRow h hleft hf, if_neg (fun h => hslots h.1)]
  have hlength : right.toNat < (topology.updateRow left.toNat heat f).slots.length := by
    rwa [length_updateRow]
  rw [← hsame] at hp hq
  refine ⟨packed_updateRow hpacked hp hq, ?_, ?_, ?_, ?_⟩
  · rw [slots_revised, length_updateRow, length_updateRow]
  · intro kind slot
    rw [neighbors_revised, neighbors_updateRow hpacked hlength hp, hsame,
      neighbors_updateRow h hleft hf]
    by_cases hl : slot = left.toNat ∧ kind = heat
    · rw [if_neg (fun hr => hslots (hr.1.symm.trans hl.1)), if_pos hl, if_pos hl]
    · rw [if_neg hl, if_neg hl]
  · rw [edgeCount_revised, edgeCount_updateRow, edgeCount_updateRow]
  · intro kind
    have hfirst := degreeSum_updateRow h hleft hf kind
    have hsecond := degreeSum_updateRow hpacked hlength hp kind
    rw [hsame] at hsecond
    rw [degreeSum_revised]
    by_cases hkind : kind = heat
    · simp only [if_pos hkind] at hfirst hsecond ⊢
      omega
    · simp only [if_neg hkind] at hfirst hsecond ⊢
      omega

section

variable {ok : Occupancy} {topology : PackedTopology} {heat : Bool} {left right : TurfHandle}

/-- What the neighbours of a slot are after the rows of two ends were rewritten. -/
theorem Ends.mem {updated : PackedTopology} {atLeft atRight : List TopologyNeighbor}
    (h : Ends topology updated heat left.slot right.slot atLeft atRight) {kind : Bool} {slot : Nat}
    {neighbor : TopologyNeighbor} (hn : neighbor ∈ updated.neighbors kind slot) :
    (slot = left.slot.toNat ∧ kind = heat ∧ neighbor ∈ atLeft) ∨
      (slot = right.slot.toNat ∧ kind = heat ∧ neighbor ∈ atRight) ∨
      (¬(slot = left.slot.toNat ∧ kind = heat) ∧ ¬(slot = right.slot.toNat ∧ kind = heat) ∧
        neighbor ∈ topology.neighbors kind slot) := by
  rw [h.neighbors] at hn
  by_cases hl : slot = left.slot.toNat ∧ kind = heat
  · rw [if_pos hl] at hn
    exact .inl ⟨hl.1, hl.2, hn⟩
  · rw [if_neg hl] at hn
    by_cases hr : slot = right.slot.toNat ∧ kind = heat
    · rw [if_pos hr] at hn
      exact .inr (.inl ⟨hr.1, hr.2, hn⟩)
    · rw [if_neg hr] at hn
      exact .inr (.inr ⟨hl, hr, hn⟩)

/-- Only the entries for each other changed in the rows of two ends. -/
structure Ends.Exchanged (topology : PackedTopology) (heat : Bool) (left right : TurfHandle)
    (atLeft atRight : List TopologyNeighbor) : Prop where
  fromLeft : ∀ neighbor ∈ atLeft, (neighbor.handle = right ∧ ⟨left, neighbor.firelock⟩ ∈ atRight) ∨
    (neighbor ∈ topology.neighbors heat left.slot.toNat ∧ neighbor.handle.slot ≠ right.slot)
  fromRight : ∀ neighbor ∈ atRight, (neighbor.handle = left ∧ ⟨right, neighbor.firelock⟩ ∈ atLeft) ∨
    (neighbor ∈ topology.neighbors heat right.slot.toNat ∧ neighbor.handle.slot ≠ left.slot)
  keptLeft : ∀ neighbor ∈ topology.neighbors heat left.slot.toNat,
    neighbor.handle.slot ≠ right.slot → neighbor ∈ atLeft
  keptRight : ∀ neighbor ∈ topology.neighbors heat right.slot.toNat,
    neighbor.handle.slot ≠ left.slot → neighbor ∈ atRight

theorem Ends.Exchanged.symm {atLeft atRight : List TopologyNeighbor}
    (h : Exchanged topology heat left right atLeft atRight) :
    Exchanged topology heat right left atRight atLeft :=
  ⟨h.fromRight, h.fromLeft, h.keptRight, h.keptLeft⟩

/-- A row of an end that is taken over names turfs that may have edges, never the end itself. -/
theorem Ends.Exchanged.valid {atLeft atRight : List TopologyNeighbor}
    (h : Exchanged topology heat left right atLeft atRight) (hjoined : Joined ok topology)
    (hne : left.slot ≠ right.slot) (hright : ok heat right) {neighbor : TopologyNeighbor}
    (hn : neighbor ∈ atLeft) :
    ok heat neighbor.handle ∧ neighbor.handle.slot.toNat ≠ left.slot.toNat := by
  rcases h.fromLeft neighbor hn with ⟨heq, -⟩ | ⟨hold, -⟩
  · rw [heq]
    exact ⟨hright, fun hslot => hne (UInt32.toNat_inj.1 hslot).symm⟩
  · exact ⟨hjoined.live heat _ neighbor hold, hjoined.irreflexive heat _ neighbor hold⟩

/-- The mirror image of an entry in the row of the first end. -/
theorem Ends.Exchanged.mirrored {updated : PackedTopology} {atLeft atRight : List TopologyNeighbor}
    (h : Exchanged topology heat left right atLeft atRight) (hjoined : Joined ok topology)
    (hleft : ∀ neighbor ∈ atRight, neighbor ∈ updated.neighbors heat right.slot.toNat)
    (hother : ∀ slot, slot ≠ left.slot.toNat → slot ≠ right.slot.toNat →
      updated.neighbors heat slot = topology.neighbors heat slot)
    {neighbor : TopologyNeighbor} (hn : neighbor ∈ atLeft) :
    ∃ generation, ⟨⟨left.slot, generation⟩, neighbor.firelock⟩ ∈
      updated.neighbors heat neighbor.handle.slot.toNat := by
  rcases h.fromLeft neighbor hn with ⟨heq, hmirror⟩ | ⟨hold, hslot⟩
  · rw [heq]
    exact ⟨left.generation, hleft _ hmirror⟩
  · obtain ⟨generation, hmem⟩ := hjoined.mirrored heat left.slot neighbor hold
    refine ⟨generation, ?_⟩
    rwa [hother _ (hjoined.irreflexive heat _ neighbor hold)
      fun heq => hslot (UInt32.toNat_inj.1 heq)]

/-- An update that exchanges the entries of two ends for each other and counts right keeps a
topology well-formed. -/
theorem joined_of_ends {updated : PackedTopology} {atLeft atRight : List TopologyNeighbor}
    (hjoined : Joined ok topology) (hne : left.slot ≠ right.slot) (hleft : ok heat left)
    (hright : ok heat right) (hends : Ends topology updated heat left.slot right.slot atLeft atRight)
    (hex : Ends.Exchanged topology heat left right atLeft atRight) {c : Nat → Nat}
    (hcount : updated.degreeSum heat = 2 * c (topology.edgeCount heat)) :
    Joined ok (updated.countEdges heat c) := by
  have hatLeft : updated.neighbors heat left.slot.toNat = atLeft := by
    rw [hends.neighbors, if_pos ⟨rfl, rfl⟩]
  have hatRight : updated.neighbors heat right.slot.toNat = atRight := by
    rw [hends.neighbors, if_neg, if_pos ⟨rfl, rfl⟩]
    exact fun h => hne (UInt32.toNat_inj.1 h.1).symm
  have hother : ∀ slot, slot ≠ left.slot.toNat → slot ≠ right.slot.toNat →
      updated.neighbors heat slot = topology.neighbors heat slot := by
    intro slot hl hr
    rw [hends.neighbors, if_neg (fun h => hl h.1), if_neg (fun h => hr h.1)]
  refine ⟨?_, ?_, ?_, ?_, ?_, ?_⟩
  · intro entry hentry
    rw [slots_countEdges] at hentry
    exact hends.packed entry hentry
  · rw [slots_countEdges, hends.length]
    exact hjoined.bounded
  · intro kind slot neighbor hn
    rw [neighbors_countEdges] at hn
    rcases hends.mem hn with ⟨-, rfl, hn⟩ | ⟨-, rfl, hn⟩ | ⟨-, -, hn⟩
    · exact (hex.valid hjoined hne hright hn).1
    · exact (hex.symm.valid hjoined (Ne.symm hne) hleft hn).1
    · exact hjoined.live kind slot neighbor hn
  · intro kind slot neighbor hn
    rw [neighbors_countEdges] at hn
    rcases hends.mem hn with ⟨rfl, rfl, hn⟩ | ⟨rfl, rfl, hn⟩ | ⟨-, -, hn⟩
    · exact (hex.valid hjoined hne hright hn).2
    · exact (hex.symm.valid hjoined (Ne.symm hne) hleft hn).2
    · exact hjoined.irreflexive kind slot neighbor hn
  · intro kind slot neighbor hn
    rw [neighbors_countEdges] at hn ⊢
    rcases hends.mem hn with ⟨hslot, rfl, hn⟩ | ⟨hslot, rfl, hn⟩ | ⟨hl, hr, hn⟩
    · rw [UInt32.toNat_inj.1 hslot]
      exact hex.mirrored hjoined (fun n hn => hatRight ▸ hn) hother hn
    · rw [UInt32.toNat_inj.1 hslot]
      exact hex.symm.mirrored hjoined (fun n hn => hatLeft ▸ hn)
        (fun slot hr hl => hother slot hl hr) hn
    · obtain ⟨generation, hmem⟩ := hjoined.mirrored kind slot neighbor hn
      refine ⟨generation, ?_⟩
      rw [hends.neighbors]
      -- the mirror image of an untouched row is in a row of an end or in an untouched one
      by_cases hnl : neighbor.handle.slot.toNat = left.slot.toNat ∧ kind = heat
      · rw [if_pos hnl]
        obtain ⟨hslot, rfl⟩ := hnl
        rw [hslot] at hmem
        exact hex.keptLeft _ hmem fun heq => hr ⟨congrArg UInt32.toNat heq, rfl⟩
      · rw [if_neg hnl]
        by_cases hnr : neighbor.handle.slot.toNat = right.slot.toNat ∧ kind = heat
        · rw [if_pos hnr]
          obtain ⟨hslot, rfl⟩ := hnr
          rw [hslot] at hmem
          exact hex.keptRight _ hmem fun heq => hl ⟨congrArg UInt32.toNat heq, rfl⟩
        · rw [if_neg hnr]
          exact hmem
  · intro kind
    rw [degreeSum_countEdges, edgeCount_countEdges, hends.edgeCount]
    by_cases hkind : kind = heat
    · subst hkind
      rw [if_pos rfl, hcount]
    · have hsum := hends.degreeSum kind
      simp only [if_neg hkind] at hsum ⊢
      rw [← hjoined.counted kind]
      exact hsum

/-! ## Connecting -/

/-- What a connection leaves: the edges as they were, or one more edge. -/
theorem final_connectCounted (topology : PackedTopology) (heat : Bool) (left right : TurfHandle) :
    let grown := topology.ensureSlot (max left.slot.toNat right.slot.toNat)
    (connectCounted left right heat).final topology = topology ∨
      (connectCounted left right heat).final topology = grown ∨
      (left.slot ≠ right.slot ∧ grown.findNeighbor left right heat = none ∧
        (grown.neighborsArray left heat).all Option.isSome = false ∧
        (grown.neighborsArray right heat).all Option.isSome = false ∧
        (connectCounted left right heat).final topology =
          ((grown.updateRow left.slot.toNat heat fun row => insertSorted row ⟨right, false⟩).updateRow
            right.slot.toNat heat fun row =>
              insertSorted row ⟨left, false⟩).revised.countEdges heat (· + 1)) := by
  intro grown
  have hgrown : topology.ensureSlot (max left.slot.toNat right.slot.toNat) = grown := rfl
  unfold Exec.final connectCounted connect
  by_cases hslot : left.slot = right.slot
  · left
    simp [hslot]
  · by_cases hfound : (grown.findNeighbor left right heat).isSome
    · right; left
      simp [Exec.run_bind, hslot, hgrown, hfound]
    · by_cases hl : (grown.neighborsArray left heat).all Option.isSome
      · right; left
        simp [-List.all_eq_true, Exec.run_bind, hslot, hgrown, hfound, hl]
      · by_cases hr : (grown.neighborsArray right heat).all Option.isSome
        · right; left
          simp [-List.all_eq_true, Exec.run_bind, hslot, hgrown, hfound, hl, hr]
        · right; right
          refine ⟨hslot, by simpa using hfound, by simpa using hl, by simpa using hr, ?_⟩
          simp [-List.all_eq_true, Exec.run_bind, hslot, hgrown, hfound, hl, hr, Except.map]

theorem findNeighbor_eq_none {topology : PackedTopology} {heat : Bool} {left right : TurfHandle} :
    topology.findNeighbor left right heat = none ↔
      ∀ neighbor ∈ topology.neighbors heat left.slot.toNat, neighbor.handle ≠ right := by
  unfold PackedTopology.findNeighbor
  rw [List.find?_eq_none]
  simp

/-- A row that is not full has room for a neighbour. -/
theorem room_of_not_full (h : topology.Packed) {handle : TurfHandle}
    (hslot : handle.slot.toNat < topology.slots.length)
    (hfull : (topology.neighborsArray handle heat).all Option.isSome = false) :
    (topology.neighbors heat handle.slot.toNat).length < maxTurfNeighbors := by
  obtain ⟨entry, hentry⟩ : ∃ entry, topology.slots[handle.slot.toNat]? = some entry :=
    ⟨_, List.getElem?_eq_getElem hslot⟩
  unfold neighborsArray at hfull
  rw [hentry, Option.map_some, Option.getD_some, h.row hentry, all_isSome_pack] at hfull
  simpa using hfull

/-- A new neighbour inserted in the rows of both ends. -/
theorem exchanged_insert (hok : ok.Functional) (h : Joined ok topology) (hleft : ok heat left)
    (hright : ok heat right)
    (hnew : ∀ neighbor ∈ topology.neighbors heat left.slot.toNat, neighbor.handle ≠ right) :
    Ends.Exchanged topology heat left right
      (insertAscending (topology.neighbors heat left.slot.toNat) ⟨right, false⟩)
      (insertAscending (topology.neighbors heat right.slot.toNat) ⟨left, false⟩) := by
  refine ⟨?_, ?_, ?_, ?_⟩
  · intro neighbor hn
    rcases mem_insertAscending.1 hn with rfl | hn
    · exact .inl ⟨rfl, mem_insertAscending.2 (.inl rfl)⟩
    · refine .inr ⟨hn, ?_⟩
      intro heq
      exact hnew neighbor hn (hok heat _ _ (h.live heat _ neighbor hn) hright heq)
  · intro neighbor hn
    rcases mem_insertAscending.1 hn with rfl | hn
    · exact .inl ⟨rfl, mem_insertAscending.2 (.inl rfl)⟩
    · refine .inr ⟨hn, ?_⟩
      intro heq
      have hsame := hok heat _ _ (h.live heat _ neighbor hn) hleft heq
      have hmirror := h.mirror hok hright hn
      rw [hsame] at hmirror
      exact hnew _ hmirror rfl
  · intro neighbor hn _
    exact mem_insertAscending.2 (.inr hn)
  · intro neighbor hn _
    exact mem_insertAscending.2 (.inr hn)

/-- **Connecting two turfs that may have edges keeps a topology well-formed**, whether it
succeeds or fails. -/
theorem joined_connectCounted (hok : ok.Functional) (h : Joined ok topology) (hleft : ok heat left)
    (hright : ok heat right) : Joined ok ((connectCounted left right heat).final topology) := by
  have hbound : max left.slot.toNat right.slot.toNat < 2 ^ 32 :=
    max_lt left.slot.toNat_lt right.slot.toNat_lt
  have hgrown := joined_ensureSlot h hbound
  have hlen := (length_ensureSlot topology (max left.slot.toNat right.slot.toNat)).1
  rcases final_connectCounted topology heat left right with heq | heq | ⟨hne, hnone, hl, hr, heq⟩
  · rwa [heq]
  · rwa [heq]
  · rw [heq]
    set grown := topology.ensureSlot (max left.slot.toNat right.slot.toNat)
    have hleftSlot : left.slot.toNat < grown.slots.length := by omega
    have hrightSlot : right.slot.toNat < grown.slots.length := by omega
    have hroomLeft := room_of_not_full hgrown.packed hleftSlot hl
    have hroomRight := room_of_not_full hgrown.packed hrightSlot hr
    have hnew := findNeighbor_eq_none.1 hnone
    have hex := exchanged_insert hok hgrown hleft hright hnew
    have hnew' : ∀ neighbor ∈ grown.neighbors heat right.slot.toNat, neighbor.handle ≠ left := by
      rintro neighbor hn rfl
      exact hnew _ (hgrown.mirror hok hright hn) rfl
    have hends := ends_updateRow (f := fun row => insertSorted row ⟨right, false⟩)
      (g := fun row => insertAscending row ⟨right, false⟩)
      (p := fun row => insertSorted row ⟨left, false⟩)
      (q := fun row => insertAscending row ⟨left, false⟩) hgrown.packed hne hleftSlot hrightSlot
      (insertSorted_pack _ hroomLeft) (insertSorted_pack _ hroomRight)
      (tidy_insertAscending (hgrown.packed.tidy _ _) hroomLeft hnew)
      (tidy_insertAscending (hgrown.packed.tidy _ _) hroomRight hnew')
    refine joined_of_ends hgrown hne hleft hright hends hex ?_
    have hsum := hends.degreeSum heat
    have hcount := hgrown.counted heat
    simp only [if_pos, length_insertAscending] at hsum
    omega

/-! ## Disconnecting -/

/-- The ends of an edge are in different slots. -/
theorem Joined.slot_ne (h : Joined ok topology) {neighbor : TopologyNeighbor}
    (hmem : neighbor ∈ topology.neighbors heat left.slot.toNat) (hhandle : neighbor.handle = right) :
    left.slot ≠ right.slot := by
  intro heq
  apply h.irreflexive heat _ neighbor hmem
  rw [hhandle, heq]

theorem mem_removeHandle (h : Tidy (topology.neighbors heat left.slot.toNat))
    {neighbor : TopologyNeighbor} :
    neighbor ∈ (topology.neighbors heat left.slot.toNat).eraseP (fun n => n.handle = right) ↔
      neighbor ∈ topology.neighbors heat left.slot.toNat ∧ neighbor.handle ≠ right := by
  rw [mem_eraseP h.nodup]
  · simp
  · intro a ha b hb hpa hpb
    exact h.eq_of_handle ha hb ((of_decide_eq_true hpa).trans (of_decide_eq_true hpb).symm)

/-- The entries for each other taken out of the rows of both ends. -/
theorem exchanged_remove (hok : ok.Functional) (h : Joined ok topology) (hleft : ok heat left)
    (hright : ok heat right) :
    Ends.Exchanged topology heat left right
      ((topology.neighbors heat left.slot.toNat).eraseP fun n => n.handle = right)
      ((topology.neighbors heat right.slot.toNat).eraseP fun n => n.handle = left) := by
  have htidy := h.packed.tidy heat
  refine ⟨?_, ?_, ?_, ?_⟩
  · intro neighbor hn
    obtain ⟨hn, hother⟩ := (mem_removeHandle (htidy _)).1 hn
    exact .inr ⟨hn, fun heq => hother (hok heat _ _ (h.live heat _ neighbor hn) hright heq)⟩
  · intro neighbor hn
    obtain ⟨hn, hother⟩ := (mem_removeHandle (htidy _)).1 hn
    exact .inr ⟨hn, fun heq => hother (hok heat _ _ (h.live heat _ neighbor hn) hleft heq)⟩
  · intro neighbor hn hslot
    exact (mem_removeHandle (htidy _)).2 ⟨hn, fun heq => hslot (congrArg TurfHandle.slot heq)⟩
  · intro neighbor hn hslot
    exact (mem_removeHandle (htidy _)).2 ⟨hn, fun heq => hslot (congrArg TurfHandle.slot heq)⟩

theorem length_removeHandle {neighbors : List TopologyNeighbor} (handle : TurfHandle)
    (h : ∃ neighbor ∈ neighbors, neighbor.handle = handle) :
    (neighbors.eraseP fun n => n.handle = handle).length + 1 = neighbors.length := by
  obtain ⟨neighbor, hn, heq⟩ := h
  have hpos : 0 < neighbors.length := List.length_pos_of_mem hn
  rw [List.length_eraseP_of_mem hn (by simpa using heq)]
  omega

/-- **Disconnecting two turfs that may have edges keeps a topology well-formed.** -/
theorem joined_disconnectCounted (hok : ok.Functional) (h : Joined ok topology)
    (hleft : ok heat left) (hright : ok heat right) :
    Joined ok (topology.disconnectCounted left right heat) := by
  unfold disconnectCounted
  by_cases hfound : (topology.findNeighbor left right heat).isSome
  · rw [if_pos hfound]
    obtain ⟨neighbor, hfind⟩ := Option.isSome_iff_exists.1 hfound
    have hmem := List.mem_of_find?_eq_some hfind
    have hhandle : neighbor.handle = right := by simpa using List.find?_some hfind
    have hne := h.slot_ne hmem hhandle
    have hmirror := h.mirror hok hleft hmem
    rw [hhandle] at hmirror
    have htidy := h.packed.tidy heat
    have hends := ends_updateRow (f := fun row => removeNeighbor row right)
      (g := fun row => row.eraseP fun n => n.handle = right)
      (p := fun row => removeNeighbor row left)
      (q := fun row => row.eraseP fun n => n.handle = left) h.packed hne
      (lt_of_mem_neighbors hmem) (lt_of_mem_neighbors hmirror)
      (removeFirst_pack _ (htidy _).bounded) (removeFirst_pack _ (htidy _).bounded)
      ((htidy _).sublist List.eraseP_sublist) ((htidy _).sublist List.eraseP_sublist)
    refine joined_of_ends h hne hleft hright hends (exchanged_remove hok h hleft hright) ?_
    have hsum := hends.degreeSum heat
    have hcount := h.counted heat
    have hfirst := length_removeHandle right ⟨neighbor, hmem, hhandle⟩
    have hsecond := length_removeHandle left ⟨_, hmirror, rfl⟩
    simp only [if_pos] at hsum
    omega
  · rwa [if_neg hfound]

/-! ## Setting a firelock -/

/-- The flag of an edge set in the rows of both ends. -/
theorem exchanged_flag (hok : ok.Functional) (h : Joined ok topology) (hleft : ok heat left)
    (hright : ok heat right) (firelock : Bool) {neighbor : TopologyNeighbor}
    (hmem : neighbor ∈ topology.neighbors heat left.slot.toNat) (hhandle : neighbor.handle = right) :
    Ends.Exchanged topology heat left right
      (flagHandle (topology.neighbors heat left.slot.toNat) right firelock)
      (flagHandle (topology.neighbors heat right.slot.toNat) left firelock) := by
  have hmirror := h.mirror hok hleft hmem
  rw [hhandle] at hmirror
  refine ⟨?_, ?_, ?_, ?_⟩
  · intro n hn
    rcases mem_flagHandle.1 hn with ⟨hn, hother⟩ | ⟨rfl, -⟩
    · exact .inr ⟨hn, fun heq => hother (hok heat _ _ (h.live heat _ n hn) hright heq)⟩
    · exact .inl ⟨rfl, mem_flagHandle.2 (.inr ⟨rfl, _, hmirror, rfl⟩)⟩
  · intro n hn
    rcases mem_flagHandle.1 hn with ⟨hn, hother⟩ | ⟨rfl, -⟩
    · exact .inr ⟨hn, fun heq => hother (hok heat _ _ (h.live heat _ n hn) hleft heq)⟩
    · exact .inl ⟨rfl, mem_flagHandle.2 (.inr ⟨rfl, neighbor, hmem, hhandle⟩)⟩
  · intro n hn hslot
    exact mem_flagHandle.2 (.inl ⟨hn, fun heq => hslot (congrArg TurfHandle.slot heq)⟩)
  · intro n hn hslot
    exact mem_flagHandle.2 (.inl ⟨hn, fun heq => hslot (congrArg TurfHandle.slot heq)⟩)

/-- **Setting the firelock of an edge keeps a topology well-formed.** -/
theorem joined_setFirelock (hok : ok.Functional) (h : Joined ok topology) (hleft : ok false left)
    (hright : ok false right) {firelock : Bool} {updated : PackedTopology}
    (hset : topology.setFirelock left right firelock = .ok updated) :
    Joined ok updated := by
  unfold setFirelock at hset
  split at hset
  · cases hset
  · next neighbor hfind =>
    split at hset
    · cases hset
      exact h
    · cases hset
      have hmem := List.mem_of_find?_eq_some hfind
      have hhandle : neighbor.handle = right := by simpa using List.find?_some hfind
      have hne := h.slot_ne hmem hhandle
      have hmirror := h.mirror hok hleft hmem
      rw [hhandle] at hmirror
      have htidy := h.packed.tidy false
      have hends := ends_updateRow (f := fun row => flagNeighbor row right firelock)
        (g := fun row => flagHandle row right firelock)
        (p := fun row => flagNeighbor row left firelock)
        (q := fun row => flagHandle row left firelock) h.packed hne
        (lt_of_mem_neighbors hmem) (lt_of_mem_neighbors hmirror)
        (flagNeighbor_pack (htidy _) _ _) (flagNeighbor_pack (htidy _) _ _)
        (tidy_flagHandle (htidy _) _ _) (tidy_flagHandle (htidy _) _ _)
      refine joined_of_ends (c := fun n => n) h hne hleft hright hends
        (exchanged_flag hok h hleft hright firelock hmem hhandle) ?_
      have hsum := hends.degreeSum false
      have hcount := h.counted false
      simp only [if_pos, flagHandle, List.length_map] at hsum
      omega

end

end Dogmos
