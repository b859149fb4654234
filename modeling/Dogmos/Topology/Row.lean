import Dogmos.Core.Topology
import Mathlib.Data.List.Pairwise
import Mathlib.Data.List.Sort

/-!
# Rows of neighbours

A packed row is the array of a list of neighbours: the neighbours in front, in
strictly ascending order of handle, and empty entries behind.  Every row
operation of the topology is an operation on the list (`insertSorted_pack`,
`removeFirst_pack`, `flagNeighbor_pack`) and keeps the row packed.
-/

namespace Dogmos

/-- The row with the given neighbours in front. -/
def pack (neighbors : List TopologyNeighbor) : Row :=
  neighbors.map some ++ List.replicate (maxTurfNeighbors - neighbors.length) none

/-- The neighbours are in strictly ascending order of handle, and no more than fit. -/
structure Tidy (neighbors : List TopologyNeighbor) : Prop where
  ascending : neighbors.Pairwise fun a b => a.handle < b.handle
  bounded : neighbors.length ≤ maxTurfNeighbors

/-- A row whose occupied entries form a prefix, sorted and without duplicates. -/
structure Row.Packed (row : Row) : Prop where
  eq_pack : row = pack row.occupied
  tidy : Tidy row.occupied

theorem occupied_pack (neighbors : List TopologyNeighbor) :
    (pack neighbors).occupied = neighbors := by
  unfold pack Row.occupied
  rw [List.filterMap_append, List.filterMap_map]
  have hfront : (id ∘ some : TopologyNeighbor → Option TopologyNeighbor) = some := rfl
  rw [hfront, List.filterMap_some]
  simp

theorem packed_pack {neighbors : List TopologyNeighbor} (h : Tidy neighbors) :
    (pack neighbors).Packed := by
  refine ⟨?_, ?_⟩
  · rw [occupied_pack]
  · rwa [occupied_pack]

theorem tidy_nil : Tidy [] := ⟨List.Pairwise.nil, Nat.zero_le _⟩

theorem packed_emptyRow : emptyRow.Packed := packed_pack tidy_nil

theorem Tidy.sublist {kept neighbors : List TopologyNeighbor} (h : Tidy neighbors)
    (hkept : kept.Sublist neighbors) : Tidy kept :=
  ⟨h.ascending.sublist hkept, hkept.length_le.trans h.bounded⟩

/-- Two neighbours of a tidy list with one handle are the same. -/
theorem Tidy.eq_of_handle {neighbors : List TopologyNeighbor} (h : Tidy neighbors)
    {a b : TopologyNeighbor} (ha : a ∈ neighbors) (hb : b ∈ neighbors)
    (hab : a.handle = b.handle) : a = b := by
  by_contra hne
  have hdistinct : neighbors.Pairwise fun a b => a.handle ≠ b.handle :=
    h.ascending.imp fun hlt => hlt.ne
  have : Std.Symm fun a b : TopologyNeighbor => a.handle ≠ b.handle := ⟨fun _ _ h => h.symm⟩
  exact hdistinct.forall ha hb hne hab

/-! ## Length and lookup of a packed row -/

theorem takeWhile_isSome_pack (neighbors : List TopologyNeighbor) :
    (pack neighbors).takeWhile Option.isSome = neighbors.map some := by
  unfold pack
  rw [List.takeWhile_append_of_pos (by simp)]
  have hnone : (List.replicate (maxTurfNeighbors - neighbors.length)
      (none : Option TopologyNeighbor)).takeWhile Option.isSome = [] := by
    cases maxTurfNeighbors - neighbors.length <;> simp [List.replicate_succ]
  rw [hnone, List.append_nil]

/-- A row is full when it holds as many neighbours as fit. -/
theorem all_isSome_pack (neighbors : List TopologyNeighbor) :
    (pack neighbors).all Option.isSome = decide (maxTurfNeighbors ≤ neighbors.length) := by
  unfold pack
  by_cases h : maxTurfNeighbors ≤ neighbors.length
  · have hzero : maxTurfNeighbors - neighbors.length = 0 := by omega
    simp [hzero, h]
  · obtain ⟨n, hn⟩ : ∃ n, maxTurfNeighbors - neighbors.length = n + 1 :=
      ⟨maxTurfNeighbors - neighbors.length - 1, by omega⟩
    simp [hn, List.replicate_succ, h]

theorem take_length_pack (neighbors : List TopologyNeighbor) :
    (pack neighbors).take neighbors.length = neighbors.map some := by
  unfold pack
  rw [List.take_append_of_le_length (by simp), List.take_of_length_le (by simp)]

/-! ## Inserting -/

/-- The list a neighbour is inserted into. -/
def insertAscending (neighbors : List TopologyNeighbor) (neighbor : TopologyNeighbor) :
    List TopologyNeighbor :=
  neighbors.takeWhile (fun other => other.handle < neighbor.handle) ++
    neighbor :: neighbors.dropWhile fun other => other.handle < neighbor.handle

theorem insertSorted_pack {neighbors : List TopologyNeighbor} (neighbor : TopologyNeighbor)
    (h : neighbors.length < maxTurfNeighbors) :
    insertSorted (pack neighbors) neighbor = pack (insertAscending neighbors neighbor) := by
  set before := neighbors.takeWhile fun other => other.handle < neighbor.handle with hbefore
  set after := neighbors.dropWhile fun other => other.handle < neighbor.handle with hafter
  have hsplit : neighbors = before ++ after := by
    rw [hbefore, hafter, List.takeWhile_append_dropWhile]
  have hcount : ((pack neighbors).takeWhile Option.isSome).length = neighbors.length := by
    rw [takeWhile_isSome_pack, List.length_map]
  have hindex : (((pack neighbors).take neighbors.length).takeWhile fun entry =>
      entry.any fun occupied => occupied.handle < neighbor.handle).length = before.length := by
    rw [take_length_pack, List.takeWhile_map, List.length_map, hbefore]
    rfl
  have hlength : neighbors.length = before.length + after.length := by
    conv_lhs => rw [hsplit]
    rw [List.length_append]
  obtain ⟨spare, hspare⟩ : ∃ spare, maxTurfNeighbors - neighbors.length = spare + 1 :=
    ⟨maxTurfNeighbors - neighbors.length - 1, by omega⟩
  have hpack : pack neighbors =
      before.map some ++ (after.map some ++ none :: List.replicate spare none) := by
    unfold pack
    rw [hspare, List.replicate_succ, hsplit, List.map_append, List.append_assoc]
  have hpacked : pack (insertAscending neighbors neighbor) =
      before.map some ++ some neighbor :: (after.map some ++ List.replicate spare none) := by
    unfold pack insertAscending
    rw [← hbefore, ← hafter, List.map_append, List.map_cons, List.length_append, List.length_cons,
      show maxTurfNeighbors - (before.length + (after.length + 1)) = spare by omega]
    simp
  have hdrop : (pack neighbors).drop before.length =
      after.map some ++ none :: List.replicate spare none := by
    rw [hpack, List.drop_append_of_le_length (by simp), List.drop_of_length_le (by simp),
      List.nil_append]
  have htake : (pack neighbors).take before.length = before.map some := by
    rw [hpack, List.take_append_of_le_length (by simp), List.take_of_length_le (by simp)]
  have hmiddle : ((pack neighbors).drop before.length).take after.length = after.map some := by
    rw [hdrop, List.take_append_of_le_length (by simp), List.take_of_length_le (by simp)]
  have hrest : (pack neighbors).drop (before.length + after.length + 1) =
      List.replicate spare none := by
    have hempty : (after.map some).drop after.length = [] := List.drop_of_length_le (by simp)
    rw [Nat.add_assoc, ← List.drop_drop, hdrop, ← List.drop_drop,
      List.drop_append_of_le_length (by simp), hempty]
    rfl
  unfold insertSorted
  dsimp only
  rw [hcount, hindex, hpacked, hlength, Nat.add_sub_cancel_left, htake, hmiddle, hrest,
    List.append_assoc, List.cons_append]

theorem mem_insertAscending {neighbors : List TopologyNeighbor} {neighbor other : TopologyNeighbor} :
    other ∈ insertAscending neighbors neighbor ↔ other = neighbor ∨ other ∈ neighbors := by
  unfold insertAscending
  conv_rhs => rw [← List.takeWhile_append_dropWhile
    (p := fun other : TopologyNeighbor => decide (other.handle < neighbor.handle)) (l := neighbors)]
  simp only [List.mem_append, List.mem_cons]
  tauto

theorem length_insertAscending (neighbors : List TopologyNeighbor) (neighbor : TopologyNeighbor) :
    (insertAscending neighbors neighbor).length = neighbors.length + 1 := by
  unfold insertAscending
  conv_rhs => rw [← List.takeWhile_append_dropWhile
    (p := fun other : TopologyNeighbor => decide (other.handle < neighbor.handle)) (l := neighbors)]
  simp only [List.length_append, List.length_cons]
  omega

/-- A handle that is not in a tidy list yet can be inserted while there is room. -/
theorem tidy_insertAscending {neighbors : List TopologyNeighbor} {neighbor : TopologyNeighbor}
    (h : Tidy neighbors) (hroom : neighbors.length < maxTurfNeighbors)
    (hnew : ∀ other ∈ neighbors, other.handle ≠ neighbor.handle) :
    Tidy (insertAscending neighbors neighbor) := by
  refine ⟨?_, by rw [length_insertAscending]; omega⟩
  have hsorted := h.ascending
  clear h hroom
  induction neighbors with
  | nil => simp [insertAscending]
  | cons first rest ih =>
    obtain ⟨hfirst, hrest⟩ := List.pairwise_cons.1 hsorted
    unfold insertAscending
    by_cases hlt : first.handle < neighbor.handle
    · rw [List.takeWhile_cons_of_pos (by simpa using hlt),
        List.dropWhile_cons_of_pos (by simpa using hlt), List.cons_append, List.pairwise_cons]
      refine ⟨?_, ih (fun other ho => hnew other (by simp [ho])) hrest⟩
      intro other ho
      rcases mem_insertAscending.1 ho with rfl | ho
      · exact hlt
      · exact hfirst other ho
    · rw [List.takeWhile_cons_of_neg (by simpa using hlt),
        List.dropWhile_cons_of_neg (by simpa using hlt), List.nil_append, List.pairwise_cons]
      have hgt : neighbor.handle < first.handle :=
        lt_of_le_of_ne (not_lt.1 hlt) (hnew first (by simp)).symm
      refine ⟨?_, hsorted⟩
      intro other ho
      rcases List.mem_cons.1 ho with rfl | ho
      · exact hgt
      · exact hgt.trans (hfirst other ho)

/-! ## Removing -/

theorem findIdx?_pack (neighbors : List TopologyNeighbor) (p : TopologyNeighbor → Bool) :
    ((pack neighbors).findIdx? fun entry => entry.any p) = neighbors.findIdx? p := by
  unfold pack
  rw [List.findIdx?_append, List.findIdx?_map]
  have hnone : (List.replicate (maxTurfNeighbors - neighbors.length)
      (none : Option TopologyNeighbor)).findIdx? (fun entry => entry.any p) = none := by
    rw [List.findIdx?_eq_none_iff]
    intro entry hentry
    rw [List.eq_of_mem_replicate hentry]
    rfl
  rw [hnone, Option.map_none, Option.or_none]
  rfl

theorem removeFirst_pack {neighbors : List TopologyNeighbor} (p : TopologyNeighbor → Bool)
    (h : neighbors.length ≤ maxTurfNeighbors) :
    removeFirst (pack neighbors) p = pack (neighbors.eraseP p) := by
  unfold removeFirst
  rw [findIdx?_pack, List.eraseP_eq_eraseIdx]
  rcases hfind : neighbors.findIdx? p with _ | index
  · rfl
  · obtain ⟨hindex, -, -⟩ := List.findIdx?_eq_some_iff_getElem.1 hfind
    show removeAt (pack neighbors) index = pack (neighbors.eraseIdx index)
    unfold removeAt pack
    rw [List.eraseIdx_append_of_lt_length (by simpa using hindex), List.eraseIdx_map,
      List.length_eraseIdx, if_pos hindex, List.append_assoc]
    congr 1
    rw [← List.replicate_succ']
    congr 1
    omega

theorem Tidy.nodup {neighbors : List TopologyNeighbor} (h : Tidy neighbors) : neighbors.Nodup :=
  h.ascending.imp fun hlt heq => absurd (congrArg TopologyNeighbor.handle heq) hlt.ne

theorem mem_eraseP {neighbors : List TopologyNeighbor} {p : TopologyNeighbor → Bool}
    (hnodup : neighbors.Nodup) (hunique : ∀ a ∈ neighbors, ∀ b ∈ neighbors, p a → p b → a = b)
    {other : TopologyNeighbor} :
    other ∈ neighbors.eraseP p ↔ other ∈ neighbors ∧ ¬p other := by
  induction neighbors with
  | nil => simp
  | cons first rest ih =>
    obtain ⟨hfirst, hrest⟩ := List.nodup_cons.1 hnodup
    by_cases hp : p first
    · rw [List.eraseP_cons_of_pos hp, List.mem_cons]
      constructor
      · intro ho
        refine ⟨.inr ho, ?_⟩
        intro hpo
        have heq := hunique first (by simp) other (by simp [ho]) hp hpo
        exact hfirst (heq ▸ ho)
      · rintro ⟨rfl | ho, hpo⟩
        · exact absurd hp hpo
        · exact ho
    · rw [List.eraseP_cons_of_neg hp, List.mem_cons, List.mem_cons,
        ih hrest fun a ha b hb => hunique a (by simp [ha]) b (by simp [hb])]
      constructor
      · rintro (rfl | ⟨ho, hpo⟩)
        · exact ⟨.inl rfl, hp⟩
        · exact ⟨.inr ho, hpo⟩
      · rintro ⟨rfl | ho, hpo⟩
        · exact .inl rfl
        · exact .inr ⟨ho, hpo⟩

/-! ## Setting a firelock -/

/-- The neighbours with the flag of one handle set. -/
def flagHandle (neighbors : List TopologyNeighbor) (handle : TurfHandle) (firelock : Bool) :
    List TopologyNeighbor :=
  neighbors.map fun neighbor => if neighbor.handle = handle then ⟨handle, firelock⟩ else neighbor

theorem flagHandle_of_notMem {neighbors : List TopologyNeighbor} {handle : TurfHandle}
    (h : ∀ neighbor ∈ neighbors, neighbor.handle ≠ handle) (firelock : Bool) :
    flagHandle neighbors handle firelock = neighbors := by
  unfold flagHandle
  conv_rhs => rw [← List.map_id neighbors]
  refine List.map_congr_left ?_
  intro neighbor hn
  rw [if_neg (h neighbor hn)]
  rfl

theorem set_eq_flagHandle {neighbors : List TopologyNeighbor} (h : Tidy neighbors)
    {handle : TurfHandle} {index : Nat} (hindex : index < neighbors.length)
    (hat : neighbors[index].handle = handle) (firelock : Bool) :
    neighbors.set index ⟨handle, firelock⟩ = flagHandle neighbors handle firelock := by
  unfold flagHandle
  refine List.ext_getElem (by simp) ?_
  intro n hn hn'
  have hlen : n < neighbors.length := by simpa using hn
  rw [List.getElem_set, List.getElem_map]
  by_cases hni : index = n
  · subst hni
    rw [if_pos rfl, if_pos hat]
  · rw [if_neg hni, if_neg ?_]
    intro heq
    have hsame := h.eq_of_handle (List.getElem_mem hlen) (List.getElem_mem hindex) (heq.trans hat.symm)
    exact hni ((List.Nodup.getElem_inj_iff h.nodup).1 hsame).symm

theorem flagNeighbor_pack {neighbors : List TopologyNeighbor} (h : Tidy neighbors)
    (handle : TurfHandle) (firelock : Bool) :
    PackedTopology.flagNeighbor (pack neighbors) handle firelock =
      pack (flagHandle neighbors handle firelock) := by
  unfold PackedTopology.flagNeighbor
  rw [findIdx?_pack]
  split
  · next index hfind =>
    obtain ⟨hindex, hat, -⟩ := List.findIdx?_eq_some_iff_getElem.1 hfind
    rw [← set_eq_flagHandle h hindex (by simpa using hat)]
    unfold pack
    rw [List.set_append_left _ _ (by simpa using hindex), List.map_set, List.length_set]
  · next hfind =>
    rw [List.findIdx?_eq_none_iff] at hfind
    rw [flagHandle_of_notMem fun neighbor hn => by simpa using hfind neighbor hn]

theorem mem_flagHandle {neighbors : List TopologyNeighbor} {handle : TurfHandle} {firelock : Bool}
    {other : TopologyNeighbor} :
    other ∈ flagHandle neighbors handle firelock ↔
      (other ∈ neighbors ∧ other.handle ≠ handle) ∨
        (other = ⟨handle, firelock⟩ ∧ ∃ neighbor ∈ neighbors, neighbor.handle = handle) := by
  unfold flagHandle
  rw [List.mem_map]
  constructor
  · rintro ⟨neighbor, hn, rfl⟩
    by_cases h : neighbor.handle = handle
    · rw [if_pos h]
      exact .inr ⟨rfl, neighbor, hn, h⟩
    · rw [if_neg h]
      exact .inl ⟨hn, h⟩
  · rintro (⟨hn, h⟩ | ⟨rfl, neighbor, hn, h⟩)
    · exact ⟨other, hn, if_neg h⟩
    · exact ⟨neighbor, hn, if_pos h⟩

theorem tidy_flagHandle {neighbors : List TopologyNeighbor} (h : Tidy neighbors)
    (handle : TurfHandle) (firelock : Bool) : Tidy (flagHandle neighbors handle firelock) := by
  refine ⟨?_, by simpa [flagHandle] using h.bounded⟩
  unfold flagHandle
  rw [List.pairwise_map]
  refine h.ascending.imp ?_
  intro a b hab
  have hkept : ∀ neighbor : TopologyNeighbor,
      (if neighbor.handle = handle then (⟨handle, firelock⟩ : TopologyNeighbor)
        else neighbor).handle = neighbor.handle := by
    intro neighbor
    by_cases hn : neighbor.handle = handle
    · rw [if_pos hn, hn]
    · rw [if_neg hn]
  rwa [hkept, hkept]

end Dogmos
