import Dogmos.Core.Graph
import Dogmos.Lib.PackedRows
import Dogmos.Lib.Bytes

/-!
# Validated graphs

`validate_graph` indexes the nodes, checks the edges, counts and places them row by row and sorts
each row.

* `indexNodes_eq_ok`, `checkEdges_eq_ok`, `resolveEdges_eq_ok`, `edgeOffsets_eq_ok` — what each pass
  accepts and what it returns.
* `placeNeighbors_eq`, `sortRows_eq` — the placing pass leaves the rows of the resolved edges packed
  into one list, and the sorting pass sorts each of them.
* `validateGraph_eq_ok` — a graph is accepted when it is well formed and its edges fit 32 bits.
* `mem_neighborIndices`, `pairwise_neighborIndices` — the row of a node holds its neighbours, each
  once and in ascending order.
-/

namespace Dogmos

open PackedRows Bytes

/-! ## The passes -/

section Passes

/-- The nodes entered into the index, with numbers from a first one on. -/
def enterNodes : List GraphNode → Nat → Std.TreeMap UInt32 Nat → Std.TreeMap UInt32 Nat
  | [], _, handleToIndex => handleToIndex
  | node :: rest, index, handleToIndex =>
    enterNodes rest (index + 1) (handleToIndex.insert node.handle index)

variable {nodes : List GraphNode} {edges edgeSet : List DirectedEdge}
  {handleToIndex entered : Std.TreeMap UInt32 Nat}

theorem indexNodes_eq_ok {index : Nat} (hindex : index ≤ 2 ^ 32) :
    indexNodes nodes index handleToIndex = .ok entered ↔
      (∀ node ∈ nodes, node.mixture.isSome) ∧ index + nodes.length ≤ 2 ^ 32 ∧
      (nodes.map GraphNode.handle).Nodup ∧
      (∀ node ∈ nodes, handleToIndex.contains node.handle = false) ∧
      entered = enterNodes nodes index handleToIndex := by
  induction nodes generalizing index handleToIndex with
  | nil =>
    simp only [indexNodes, enterNodes, pure_eq, Except.ok.injEq]
    exact ⟨fun h => ⟨by simp, hindex, .nil, by simp, h.symm⟩, fun h => h.2.2.2.2.symm⟩
  | cons node rest ih =>
    rw [indexNodes, enterNodes]
    by_cases hmixture : node.mixture.isNone = true
    · rw [if_pos hmixture]
      refine iff_of_false (fun h => by cases h) fun h => ?_
      have hsome := h.1 node List.mem_cons_self
      rw [Option.isNone_iff_eq_none.1 hmixture] at hsome
      cases hsome
    rw [if_neg hmixture]
    by_cases hspace : 2 ^ 32 ≤ index
    · rw [if_pos hspace]
      refine iff_of_false (fun h => by cases h) fun h => ?_
      have hlength := h.2.1
      rw [List.length_cons] at hlength
      omega
    rw [if_neg hspace]
    by_cases hknown : handleToIndex.contains node.handle = true
    · rw [if_pos hknown]
      refine iff_of_false (fun h => by cases h) fun h => ?_
      have hnew := h.2.2.2.1 node List.mem_cons_self
      rw [hknown] at hnew
      cases hnew
    rw [if_neg hknown, ih (by omega)]
    have hsome : node.mixture.isSome = true := by
      rw [← Option.not_isNone, Bool.eq_false_of_not_eq_true hmixture, Bool.not_false]
    have hcontains : ∀ other : GraphNode,
        (handleToIndex.insert node.handle index).contains other.handle = false ↔
          other.handle ≠ node.handle ∧ handleToIndex.contains other.handle = false := by
      intro other
      rw [Std.TreeMap.contains_insert]
      by_cases heq : node.handle = other.handle
      · simp [heq]
      · simp [heq, Ne.symm heq]
    simp only [hcontains, List.forall_mem_cons, List.map_cons, List.nodup_cons, List.mem_map,
      List.length_cons]
    constructor
    · rintro ⟨hmixtures, hlength, hnodup, hnew, rfl⟩
      refine ⟨⟨hsome, hmixtures⟩, by omega, ⟨?_, hnodup⟩, ⟨?_, fun other h => (hnew other h).2⟩, rfl⟩
      · rintro ⟨other, hother, heq⟩
        exact (hnew other hother).1 heq
      · exact Bool.eq_false_of_not_eq_true hknown
    · rintro ⟨⟨-, hmixtures⟩, hlength, ⟨hfirst, hnodup⟩, ⟨-, hnew⟩, rfl⟩
      refine ⟨hmixtures, by omega, hnodup, fun other hother => ⟨fun heq => ?_, hnew other hother⟩, rfl⟩
      exact hfirst ⟨other, hother, heq⟩

/-- A handle is found at the place of its node. -/
theorem getElem?_enterNodes (hnodup : (nodes.map GraphNode.handle).Nodup) {index : Nat}
    (hnew : ∀ node ∈ nodes, handleToIndex[node.handle]? = none) {handle : UInt32} {i : Nat} :
    (enterNodes nodes index handleToIndex)[handle]? = some i ↔
      handleToIndex[handle]? = some i ∨
        index ≤ i ∧ (nodes.map GraphNode.handle)[i - index]? = some handle := by
  induction nodes generalizing index handleToIndex with
  | nil => simp [enterNodes]
  | cons node rest ih =>
    rw [List.map_cons, List.nodup_cons] at hnodup
    rw [List.forall_mem_cons] at hnew
    have hrest : ∀ other ∈ rest, (handleToIndex.insert node.handle index)[other.handle]? = none := by
      intro other hother
      have hne : node.handle ≠ other.handle :=
        fun heq => hnodup.1 (heq ▸ List.mem_map_of_mem hother)
      rw [Std.TreeMap.getElem?_insert, if_neg (by simpa using hne)]
      exact hnew.2 other hother
    rw [enterNodes, ih hnodup.2 hrest, Std.TreeMap.getElem?_insert, List.map_cons]
    by_cases heq : node.handle = handle
    · rw [if_pos (by simp [heq])]
      have hother : ∀ k : Nat, (rest.map GraphNode.handle)[k]? ≠ some handle :=
        fun k hk => hnodup.1 (heq ▸ List.mem_of_getElem? hk)
      subst heq
      rw [hnew.1]
      constructor
      · rintro (hfound | ⟨-, hfound⟩)
        · cases hfound
          exact .inr ⟨le_rfl, by rw [Nat.sub_self]; rfl⟩
        · exact absurd hfound (hother _)
      · rintro (hfound | ⟨hle, hfound⟩)
        · cases hfound
        · rcases hplace : i - index with _ | k
          · exact .inl (congrArg some (by omega))
          · rw [hplace] at hfound
            exact absurd hfound (hother k)
    · rw [if_neg (by simpa using heq)]
      refine or_congr_right ⟨fun ⟨hle, hfound⟩ => ⟨by omega, ?_⟩, fun ⟨hle, hfound⟩ => ?_⟩
      · have hplace : i - index = (i - (index + 1)) + 1 := by omega
        rw [hplace]
        exact hfound
      · rcases hplace : i - index with _ | k
        · rw [hplace] at hfound
          exact absurd (Option.some.inj hfound) heq
        · rw [hplace] at hfound
          refine ⟨by omega, ?_⟩
          have hpred : i - (index + 1) = k := by omega
          rw [hpred]
          exact hfound

theorem checkEdges_eq_ok {seen : List DirectedEdge} :
    checkEdges handleToIndex edges seen = .ok () ↔
      (∀ edge ∈ edges, handleToIndex.contains edge.source = true ∧
        handleToIndex.contains edge.target = true ∧ edge.source ≠ edge.target) ∧
      edges.Nodup ∧ ∀ edge ∈ edges, edge ∉ seen := by
  induction edges generalizing seen with
  | nil => simp [checkEdges]
  | cons edge rest ih =>
    rw [checkEdges]
    by_cases hsource : (!handleToIndex.contains edge.source) = true
    · rw [if_pos hsource]
      refine iff_of_false (fun h => by cases h) fun h => ?_
      rw [(h.1 edge List.mem_cons_self).1] at hsource
      cases hsource
    by_cases htarget : (!handleToIndex.contains edge.target) = true
    · rw [if_neg hsource, if_pos htarget]
      refine iff_of_false (fun h => by cases h) fun h => ?_
      rw [(h.1 edge List.mem_cons_self).2.1] at htarget
      cases htarget
    by_cases hself : edge.source = edge.target
    · rw [if_neg hsource, if_neg htarget, if_pos hself]
      exact iff_of_false (fun h => by cases h) fun h => (h.1 edge List.mem_cons_self).2.2 hself
    by_cases hseen : edge ∈ seen
    · rw [if_neg hsource, if_neg htarget, if_neg hself, if_pos hseen]
      exact iff_of_false (fun h => by cases h) fun h => h.2.2 edge List.mem_cons_self hseen
    rw [if_neg hsource, if_neg htarget, if_neg hself, if_neg hseen, ih]
    simp only [Bool.not_eq_true', Bool.not_eq_false] at hsource htarget
    rw [List.forall_mem_cons, List.forall_mem_cons, List.nodup_cons]
    simp only [List.mem_cons, not_or]
    constructor
    · rintro ⟨hrest, hnodup, hunseen⟩
      exact ⟨⟨⟨hsource, htarget, hself⟩, hrest⟩, ⟨fun hmem => (hunseen edge hmem).1 rfl, hnodup⟩,
        hseen, fun other hother => (hunseen other hother).2⟩
    · rintro ⟨⟨-, hrest⟩, ⟨hfirst, hnodup⟩, -, hunseen⟩
      exact ⟨hrest, hnodup, fun other hother => ⟨fun heq => hfirst (heq ▸ hother),
        hunseen other hother⟩⟩

/-- The indices of the ends of an edge. -/
def endIndices (handleToIndex : Std.TreeMap UInt32 Nat) (edge : DirectedEdge) : Nat × Nat :=
  (handleToIndex[edge.source]?.getD 0, handleToIndex[edge.target]?.getD 0)

theorem resolveEdges_eq_ok {degrees : List Nat} {resolved : List (Nat × Nat)}
    {found : List Nat × List (Nat × Nat)} :
    resolveEdges handleToIndex edgeSet edges degrees resolved = .ok found ↔
      (∀ edge ∈ edges, (⟨edge.target, edge.source⟩ : DirectedEdge) ∈ edgeSet) ∧
      found = ((edges.map (endIndices handleToIndex)).foldl
          (fun counts pair => counts.modify pair.1 (· + 1)) degrees,
        resolved ++ edges.map (endIndices handleToIndex)) := by
  induction edges generalizing degrees resolved with
  | nil => simp [resolveEdges, eq_comm]
  | cons edge rest ih =>
    rw [resolveEdges]
    by_cases hreverse : (⟨edge.target, edge.source⟩ : DirectedEdge) ∉ edgeSet
    · rw [if_pos hreverse]
      exact iff_of_false (fun h => by cases h) fun h => hreverse (h.1 edge List.mem_cons_self)
    · rw [if_neg hreverse]
      dsimp only
      rw [ih, List.forall_mem_cons, List.map_cons, List.foldl_cons, List.append_assoc,
        List.singleton_append]
      rw [not_not] at hreverse
      simp only [hreverse, true_and]
      rfl

theorem edgeOffsets_eq_ok {degrees offsets : List Nat} {edgeCount : Nat} {found : List Nat × Nat}
    (hcount : edgeCount < 2 ^ 32) :
    edgeOffsets degrees edgeCount offsets = .ok found ↔
      edgeCount + degrees.sum < 2 ^ 32 ∧
      found = (offsets ++ (List.range degrees.length).map
        (fun i => edgeCount + (degrees.take (i + 1)).sum), edgeCount + degrees.sum) := by
  induction degrees generalizing edgeCount offsets with
  | nil =>
    rw [edgeOffsets, pure_eq, Except.ok.injEq]
    simp only [List.sum_nil, Nat.add_zero, hcount, true_and, List.length_nil, List.range_zero,
      List.map_nil, List.append_nil]
    exact eq_comm
  | cons degree rest ih =>
    rw [edgeOffsets, List.sum_cons, List.length_cons]
    by_cases hspace : 2 ^ 32 ≤ edgeCount + degree
    · rw [if_pos hspace]
      exact iff_of_false (fun h => by cases h) fun h => by omega
    · have hoffsets : ∀ i, edgeCount + ((degree :: rest).take (i + 1)).sum =
          edgeCount + degree + (rest.take i).sum := by
        intro i
        rw [List.take_succ_cons, List.sum_cons, Nat.add_assoc]
      rw [if_neg hspace, ih (by omega), List.range_succ_eq_map]
      simp only [hoffsets, List.map_cons, List.map_map, List.append_assoc, List.singleton_append,
        List.take_zero, List.sum_nil, Nat.add_zero, Nat.add_assoc, Function.comp_def]

/-- The placing pass leaves the rows packed. -/
theorem placeNeighbors_eq {offsets : List Nat} {n : Nat} {pairs placed rest : List (Nat × Nat)}
    (hoffsets : ∀ i < n, offsets.getD i 0 = start (rowsOf n pairs) i)
    (hpairs : pairs = placed ++ rest) (hvalid : ∀ pair ∈ rest, pair.1 < n) :
    placeNeighbors offsets rest ((List.range n).map fun i => (rowOf placed i).length)
      (filled 0 n pairs placed).flatten = (rowsOf n pairs).flatten := by
  induction rest generalizing placed with
  | nil =>
    rw [List.append_nil] at hpairs
    subst hpairs
    rw [placeNeighbors, filled_self]
  | cons pair rest ih =>
    obtain ⟨source, target⟩ := pair
    rw [List.forall_mem_cons] at hvalid
    have hcursor : ((List.range n).map fun i => (rowOf placed i).length).getD source 0 =
        (rowOf placed source).length := by
      rw [List.getD_eq_getElem?_getD, getElem?_map_range, if_pos hvalid.1, Option.getD_some]
    have hcursors : ((List.range n).map fun i => (rowOf placed i).length).modify source (· + 1) =
        (List.range n).map fun i => (rowOf (placed ++ [(source, target)]) i).length := by
      rw [modify_map_range]
      refine List.map_congr_left fun i _ => ?_
      rw [rowOf_append, rowOf_singleton]
      split <;> simp
    rw [placeNeighbors, hcursor, hoffsets source hvalid.1, set_filled hpairs hvalid.1, hcursors]
    exact ih (by rw [hpairs, List.append_assoc]; rfl) hvalid.2

theorem sortRow_eq {offsets : List Nat} {rows : List (List Nat)} {i : Nat} (h : i < rows.length)
    (hstart : offsets.getD i 0 = start rows i)
    (hstop : offsets.getD (i + 1) 0 = start rows (i + 1)) :
    sortRow offsets rows.flatten i = (rows.set i (rows[i].insertionSort (· ≤ ·))).flatten := by
  unfold sortRow
  dsimp only
  rw [hstart, hstop, slice_flatten h, replace_flatten h]

/-- The sorting pass sorts every row. -/
theorem sortRows_eq {offsets : List Nat} {n : Nat} {row : Nat → List Nat}
    (hoffsets : ∀ i ≤ n, offsets.getD i 0 = start ((List.range n).map row) i) :
    (List.range n).foldl (sortRow offsets) ((List.range n).map row).flatten =
      ((List.range n).map fun i => (row i).insertionSort (· ≤ ·)).flatten := by
  -- the induction is on the number of rows that are sorted
  have hsorted : ∀ k ≤ n, (List.range k).foldl (sortRow offsets) ((List.range n).map row).flatten =
      ((List.range n).map fun i => if i < k then (row i).insertionSort (· ≤ ·) else row i).flatten := by
    intro k hk
    induction k with
    | zero => simp
    | succ k ih =>
      have hstart : start ((List.range n).map fun i =>
          if i < k then (row i).insertionSort (· ≤ ·) else row i) =
            start ((List.range n).map row) := by
        unfold start
        simp only [List.map_map, Function.comp_def, apply_ite List.length,
          List.length_insertionSort, ite_self]
      have hplace : k < ((List.range n).map fun i =>
          if i < k then (row i).insertionSort (· ≤ ·) else row i).length := by
        rw [List.length_map, List.length_range]
        omega
      rw [List.range_succ, List.foldl_append, ih (by omega), List.foldl_cons, List.foldl_nil,
        sortRow_eq hplace (by rw [hstart]; exact hoffsets k (by omega))
          (by rw [hstart]; exact hoffsets (k + 1) hk), set_map_range]
      refine congrArg List.flatten (List.map_congr_left fun i _ => ?_)
      by_cases hi : i = k
      · subst hi
        simp
      · rw [if_neg hi]
        have hless : i < k + 1 ↔ i < k := by omega
        simp only [hless]
  rw [hsorted n le_rfl]
  refine congrArg List.flatten (List.map_congr_left fun i hi => ?_)
  rw [if_pos (List.mem_range.1 hi)]

end Passes

/-! ## Acceptance -/

/-- A list of nodes and edges that is well formed. -/
structure WellFormedGraph (nodes : List GraphNode) (edges : List DirectedEdge) : Prop where
  mixtures : ∀ node ∈ nodes, node.mixture.isSome
  handles : (nodes.map GraphNode.handle).Nodup
  listed : ∀ edge ∈ edges, edge.source ∈ nodes.map GraphNode.handle ∧
    edge.target ∈ nodes.map GraphNode.handle
  distinct : ∀ edge ∈ edges, edge.source ≠ edge.target
  nodup : edges.Nodup
  reciprocal : ∀ edge ∈ edges, (⟨edge.target, edge.source⟩ : DirectedEdge) ∈ edges
  degree : ∀ node ∈ nodes,
    (edges.filter fun edge => edge.source = node.handle).length ≤ maxCardinalNeighbors

/-- The indices of the ends of the edges, in the order of the edge set. -/
def edgePairs (nodes : List GraphNode) (edges : List DirectedEdge) : List (Nat × Nat) :=
  (sortedEdges edges).map (endIndices (enterNodes nodes 0 ∅))

/-- The graph that is built from nodes and edges that are well formed. -/
def builtGraph (nodes : List GraphNode) (edges : List DirectedEdge) : DiffusionGraph where
  nodes := nodes
  handleToIndex := enterNodes nodes 0 ∅
  offsets := (List.range (nodes.length + 1)).map
    (start (rowsOf nodes.length (edgePairs nodes edges)))
  neighbors := ((List.range nodes.length).map fun i =>
    (rowOf (edgePairs nodes edges) i).insertionSort (· ≤ ·)).flatten

section Acceptance

variable {nodes : List GraphNode} {edges : List DirectedEdge} {edge : DirectedEdge}
  {graph : DiffusionGraph} {handle : UInt32} {i j : Nat}

theorem perm_sortedEdges (edges : List DirectedEdge) : (sortedEdges edges).Perm edges :=
  List.perm_insertionSort _ edges

theorem getElem?_index (hnodup : (nodes.map GraphNode.handle).Nodup) :
    (enterNodes nodes 0 ∅)[handle]? = some i ↔ (nodes.map GraphNode.handle)[i]? = some handle := by
  rw [getElem?_enterNodes hnodup fun _ _ => Std.TreeMap.getElem?_emptyc]
  simp

theorem contains_index (hnodup : (nodes.map GraphNode.handle).Nodup) :
    (enterNodes nodes 0 ∅).contains handle = true ↔ handle ∈ nodes.map GraphNode.handle := by
  rw [Std.TreeMap.contains_eq_isSome_getElem?, Option.isSome_iff_exists, List.mem_iff_getElem?]
  exact exists_congr fun _ => getElem?_index hnodup

/-- The ends of a listed edge are the places of its handles. -/
theorem endIndices_spec (hnodup : (nodes.map GraphNode.handle).Nodup)
    (hlisted : edge.source ∈ nodes.map GraphNode.handle ∧ edge.target ∈ nodes.map GraphNode.handle) :
    (nodes.map GraphNode.handle)[(endIndices (enterNodes nodes 0 ∅) edge).1]? = some edge.source ∧
    (nodes.map GraphNode.handle)[(endIndices (enterNodes nodes 0 ∅) edge).2]? = some edge.target := by
  obtain ⟨⟨i, hi⟩, ⟨j, hj⟩⟩ := hlisted.imp List.mem_iff_getElem?.1 List.mem_iff_getElem?.1
  unfold endIndices
  rw [(getElem?_index hnodup).2 hi, (getElem?_index hnodup).2 hj]
  exact ⟨hi, hj⟩

theorem length_lt_of_getElem? (h : (nodes.map GraphNode.handle)[i]? = some handle) :
    i < nodes.length := by
  have hlt := (List.getElem?_eq_some_iff.1 h).1
  rwa [List.length_map] at hlt

theorem edgePairs_lt (hnodup : (nodes.map GraphNode.handle).Nodup)
    (hlisted : ∀ edge ∈ edges, edge.source ∈ nodes.map GraphNode.handle ∧
      edge.target ∈ nodes.map GraphNode.handle) :
    ∀ pair ∈ edgePairs nodes edges, pair.1 < nodes.length := by
  intro pair hpair
  obtain ⟨edge, hedge, rfl⟩ := List.mem_map.1 hpair
  exact length_lt_of_getElem?
    (endIndices_spec hnodup (hlisted edge ((perm_sortedEdges edges).mem_iff.1 hedge))).1

/-- The number of entries of a row is the degree of its node. -/
theorem length_rowOf_edgePairs (hnodup : (nodes.map GraphNode.handle).Nodup)
    (hlisted : ∀ edge ∈ edges, edge.source ∈ nodes.map GraphNode.handle ∧
      edge.target ∈ nodes.map GraphNode.handle)
    (h : (nodes.map GraphNode.handle)[i]? = some handle) :
    (rowOf (edgePairs nodes edges) i).length =
      (edges.filter fun edge => edge.source = handle).length := by
  unfold rowOf edgePairs
  rw [List.length_map, List.filter_map, List.length_map,
    ← ((perm_sortedEdges edges).filter fun edge => edge.source = handle).length_eq]
  refine congrArg List.length (List.filter_congr fun edge hedge => ?_)
  obtain ⟨hsource, -⟩ := endIndices_spec hnodup
    (hlisted edge ((perm_sortedEdges edges).mem_iff.1 hedge))
  refine decide_eq_decide.2 ⟨fun heq => ?_, fun heq => ?_⟩
  · rw [heq, h] at hsource
    exact (Option.some.inj hsource).symm
  · rw [heq] at hsource
    exact ((List.getElem?_inj (List.getElem?_eq_some_iff.1 h).1 hnodup).1
      (h.trans hsource.symm)).symm

theorem length_le_of_nodup (hnodup : (nodes.map GraphNode.handle).Nodup) :
    nodes.length ≤ 2 ^ 32 := by
  have hsub : (nodes.map GraphNode.handle).map UInt32.toNat ⊆ List.range (2 ^ 32) := by
    intro k hk
    obtain ⟨handle, -, rfl⟩ := List.mem_map.1 hk
    exact List.mem_range.2 handle.toNat_lt
  have hle := (List.subperm_of_subset (hnodup.map fun _ _ => UInt32.toNat_inj.1) hsub).length_le
  rwa [List.length_map, List.length_map, List.length_range] at hle

/-- The degree check fails at no node. -/
theorem find?_degree_eq_none {degree : Nat → Nat} :
    (nodes.zip ((List.range nodes.length).map degree)).find?
        (fun entry => maxCardinalNeighbors < entry.2) = none ↔
      ∀ i < nodes.length, degree i ≤ maxCardinalNeighbors := by
  rw [List.find?_eq_none]
  constructor
  · intro h i hi
    have hentry : (nodes[i], degree i) ∈ nodes.zip ((List.range nodes.length).map degree) := by
      refine List.mem_iff_getElem?.2 ⟨i, ?_⟩
      rw [List.getElem?_zip_eq_some, getElem?_map_range, if_pos hi]
      exact ⟨List.getElem?_eq_getElem hi, rfl⟩
    have hfew := h _ hentry
    simpa using hfew
  · rintro h ⟨node, count⟩ hentry
    obtain ⟨i, hi⟩ := List.mem_iff_getElem?.1 hentry
    rw [List.getElem?_zip_eq_some, getElem?_map_range] at hi
    obtain ⟨hnode, hcount⟩ := hi
    have hlt := (List.getElem?_eq_some_iff.1 hnode).1
    rw [if_pos hlt] at hcount
    cases hcount
    simpa using h i hlt

/-- The prefix sums are the starts of the rows. -/
theorem offsets_eq (n : Nat) (pairs : List (Nat × Nat)) :
    [0] ++ (List.range ((List.range n).map fun i => (rowOf pairs i).length).length).map (fun i =>
        0 + (((List.range n).map fun i => (rowOf pairs i).length).take (i + 1)).sum) =
      (List.range (n + 1)).map (start (rowsOf n pairs)) := by
  have hlengths : (rowsOf n pairs).map List.length =
      (List.range n).map fun i => (rowOf pairs i).length := by
    rw [rowsOf, List.map_map]
    rfl
  unfold start
  rw [hlengths, List.range_succ_eq_map, List.length_map, List.length_range, List.map_cons,
    List.map_map]
  simp [Function.comp_def]

/-- Placed and sorted, the edges are the sorted rows, packed. -/
theorem sortedNeighbors_eq {n : Nat} {pairs : List (Nat × Nat)}
    (hpairs : ∀ pair ∈ pairs, pair.1 < n) :
    (List.range n).foldl (sortRow ((List.range (n + 1)).map (start (rowsOf n pairs))))
        (placeNeighbors ((List.range (n + 1)).map (start (rowsOf n pairs))) pairs
          (List.replicate n 0) (List.replicate pairs.length 0)) =
      ((List.range n).map fun i => (rowOf pairs i).insertionSort (· ≤ ·)).flatten := by
  have hoffsets : ∀ i ≤ n, ((List.range (n + 1)).map (start (rowsOf n pairs))).getD i 0 =
      start (rowsOf n pairs) i := by
    intro i hi
    rw [List.getD_eq_getElem?_getD, getElem?_map_range, if_pos (by omega), Option.getD_some]
  have hplaced := @placeNeighbors_eq _ n pairs [] pairs (fun i hi => hoffsets i (by omega)) rfl hpairs
  have hcursors : ((List.range n).map fun i => (rowOf ([] : List (Nat × Nat)) i).length) =
      List.replicate n 0 := by
    simp
  rw [flatten_filled_nil hpairs, hcursors] at hplaced
  rw [hplaced]
  exact sortRows_eq hoffsets

/-- **What `validate_graph` accepts** and the graph it builds. -/
theorem validateGraph_eq_ok : validateGraph nodes edges = .ok graph ↔
    WellFormedGraph nodes edges ∧ edges.length < 2 ^ 32 ∧ graph = builtGraph nodes edges := by
  have hmem : ∀ {edge}, edge ∈ sortedEdges edges ↔ edge ∈ edges :=
    (perm_sortedEdges edges).mem_iff
  unfold validateGraph
  rw [bind_eq_ok]
  constructor
  · rintro ⟨_, hindexed, h⟩
    obtain ⟨hmixtures, -, hnodup, -, rfl⟩ := (indexNodes_eq_ok (by decide)).1 hindexed
    rw [bind_eq_ok] at h
    obtain ⟨⟨⟩, hchecked, h⟩ := h
    obtain ⟨hvalid, hedges, -⟩ := checkEdges_eq_ok.1 hchecked
    have hlisted : ∀ edge ∈ edges, edge.source ∈ nodes.map GraphNode.handle ∧
        edge.target ∈ nodes.map GraphNode.handle := fun edge hedge =>
      ⟨(contains_index hnodup).1 (hvalid edge hedge).1,
        (contains_index hnodup).1 (hvalid edge hedge).2.1⟩
    have hpairs := edgePairs_lt hnodup hlisted
    have hsum := sum_rows hpairs
    dsimp only at h
    rw [bind_eq_ok] at h
    obtain ⟨_, hresolved, h⟩ := h
    obtain ⟨hreciprocal, rfl⟩ := resolveEdges_eq_ok.1 hresolved
    rw [count_rows, List.nil_append, ← edgePairs] at h
    dsimp only at h
    rcases hdegree : (nodes.zip ((List.range nodes.length).map fun i =>
        (rowOf (edgePairs nodes edges) i).length)).find?
          (fun entry => maxCardinalNeighbors < entry.2) with _ | entry
    · rw [hdegree] at h
      dsimp only at h
      rw [bind_eq_ok] at h
      obtain ⟨_, hoffsets, h⟩ := h
      obtain ⟨hspace, rfl⟩ := (edgeOffsets_eq_ok (by decide)).1 hoffsets
      rw [hsum, Nat.zero_add] at hspace h
      dsimp only at h
      rw [offsets_eq, sortedNeighbors_eq hpairs, pure_eq, Except.ok.injEq] at h
      rw [find?_degree_eq_none] at hdegree
      rw [edgePairs, List.length_map, (perm_sortedEdges edges).length_eq] at hspace
      refine ⟨⟨hmixtures, hnodup, hlisted, fun edge hedge => (hvalid edge hedge).2.2, hedges,
        fun edge hedge => hmem.1 (hreciprocal edge (hmem.2 hedge)), fun node hnode => ?_⟩, hspace,
        h.symm⟩
      obtain ⟨i, hi⟩ := List.mem_iff_getElem?.1 hnode
      have hhandle : (nodes.map GraphNode.handle)[i]? = some node.handle := by
        rw [List.getElem?_map, hi, Option.map_some]
      rw [← length_rowOf_edgePairs hnodup hlisted hhandle]
      exact hdegree i (length_lt_of_getElem? hhandle)
    · rw [hdegree] at h
      cases h
  · rintro ⟨hwf, hspace, rfl⟩
    have hpairs := edgePairs_lt hwf.handles hwf.listed
    have hsum := sum_rows hpairs
    have hvalid : ∀ edge ∈ edges, (enterNodes nodes 0 ∅).contains edge.source = true ∧
        (enterNodes nodes 0 ∅).contains edge.target = true ∧ edge.source ≠ edge.target :=
      fun edge hedge => ⟨(contains_index hwf.handles).2 (hwf.listed edge hedge).1,
        (contains_index hwf.handles).2 (hwf.listed edge hedge).2, hwf.distinct edge hedge⟩
    refine ⟨_, (indexNodes_eq_ok (by decide)).2 ⟨hwf.mixtures, ?_, hwf.handles, ?_, rfl⟩, ?_⟩
    · rw [Nat.zero_add]
      exact length_le_of_nodup hwf.handles
    · exact fun _ _ => Std.TreeMap.contains_emptyc
    rw [bind_eq_ok]
    refine ⟨(), checkEdges_eq_ok.2 ⟨hvalid, hwf.nodup, by simp⟩, ?_⟩
    dsimp only
    rw [bind_eq_ok]
    refine ⟨_, resolveEdges_eq_ok.2 ⟨fun edge hedge =>
      hmem.2 (hwf.reciprocal edge (hmem.1 hedge)), rfl⟩, ?_⟩
    rw [count_rows, List.nil_append, ← edgePairs]
    dsimp only
    have hdegree := (@find?_degree_eq_none nodes fun i =>
      (rowOf (edgePairs nodes edges) i).length).2 fun i hi => ?_
    · rw [hdegree]
      dsimp only
      rw [bind_eq_ok]
      refine ⟨_, (edgeOffsets_eq_ok (by decide)).2 ⟨?_, rfl⟩, ?_⟩
      · rwa [hsum, Nat.zero_add, edgePairs, List.length_map, (perm_sortedEdges edges).length_eq]
      · rw [hsum, Nat.zero_add]
        dsimp only
        rw [offsets_eq, sortedNeighbors_eq hpairs]
        rfl
    · have hnode : (nodes.map GraphNode.handle)[i]? = some nodes[i].handle := by
        rw [List.getElem?_map, List.getElem?_eq_getElem hi, Option.map_some]
      rw [length_rowOf_edgePairs hwf.handles hwf.listed hnode]
      exact hwf.degree _ (List.getElem_mem hi)

end Acceptance

/-! ## Rows -/

/-- An edge leads from the node at one index to the node at another. -/
def Adjacent (nodes : List GraphNode) (edges : List DirectedEdge) (i j : Nat) : Prop :=
  ∃ edge ∈ edges, (nodes.map GraphNode.handle)[i]? = some edge.source ∧
    (nodes.map GraphNode.handle)[j]? = some edge.target

section Rows

variable {nodes : List GraphNode} {edges : List DirectedEdge} {i j : Nat}

theorem mem_edgePairs (h : WellFormedGraph nodes edges) :
    (i, j) ∈ edgePairs nodes edges ↔ Adjacent nodes edges i j := by
  unfold edgePairs Adjacent
  simp only [List.mem_map, (perm_sortedEdges edges).mem_iff]
  refine exists_congr fun edge => and_congr_right fun hedge => ?_
  obtain ⟨hsource, htarget⟩ := endIndices_spec h.handles (h.listed edge hedge)
  constructor
  · intro hends
    rw [hends] at hsource htarget
    exact ⟨hsource, htarget⟩
  · rintro ⟨hi, hj⟩
    refine Prod.ext ?_ ?_
    · exact (List.getElem?_inj (List.getElem?_eq_some_iff.1 hsource).1 h.handles).1
        (hsource.trans hi.symm)
    · exact (List.getElem?_inj (List.getElem?_eq_some_iff.1 htarget).1 h.handles).1
        (htarget.trans hj.symm)

theorem nodup_edgePairs (h : WellFormedGraph nodes edges) : (edgePairs nodes edges).Nodup := by
  refine List.Nodup.map_on (fun edge hedge other hother heq => ?_)
    ((perm_sortedEdges edges).nodup_iff.2 h.nodup)
  rw [(perm_sortedEdges edges).mem_iff] at hedge hother
  obtain ⟨hsource, htarget⟩ := endIndices_spec h.handles (h.listed edge hedge)
  obtain ⟨hsource', htarget'⟩ := endIndices_spec h.handles (h.listed other hother)
  rw [heq] at hsource htarget
  cases edge
  cases other
  cases Option.some.inj (hsource.symm.trans hsource')
  cases Option.some.inj (htarget.symm.trans htarget')
  rfl

theorem neighborIndices_builtGraph (hi : i < nodes.length) :
    (builtGraph nodes edges).neighborIndices i =
      (rowOf (edgePairs nodes edges) i).insertionSort (· ≤ ·) := by
  have hstart : start ((List.range nodes.length).map fun i =>
      (rowOf (edgePairs nodes edges) i).insertionSort (· ≤ ·)) =
        start (rowsOf nodes.length (edgePairs nodes edges)) := by
    unfold start rowsOf
    simp only [List.map_map, Function.comp_def, List.length_insertionSort]
  have hlength : i < ((List.range nodes.length).map fun i =>
      (rowOf (edgePairs nodes edges) i).insertionSort (· ≤ ·)).length := by
    rwa [List.length_map, List.length_range]
  unfold DiffusionGraph.neighborIndices builtGraph
  simp only [List.getD_eq_getElem?_getD, getElem?_map_range]
  rw [if_pos (by omega), if_pos (by omega), Option.getD_some, Option.getD_some, ← hstart,
    slice_flatten hlength]
  simp

/-- The row of a node holds its neighbours. -/
theorem mem_neighborIndices (h : WellFormedGraph nodes edges) (hi : i < nodes.length) :
    j ∈ (builtGraph nodes edges).neighborIndices i ↔ Adjacent nodes edges i j := by
  rw [neighborIndices_builtGraph hi, List.mem_insertionSort, mem_rowOf, mem_edgePairs h]

/-- A row goes up, so that each neighbour is in it once. -/
theorem pairwise_neighborIndices (h : WellFormedGraph nodes edges) (hi : i < nodes.length) :
    ((builtGraph nodes edges).neighborIndices i).Pairwise (· < ·) := by
  rw [neighborIndices_builtGraph hi]
  have hle := List.pairwise_insertionSort (· ≤ ·) (rowOf (edgePairs nodes edges) i)
  have hnodup := (List.perm_insertionSort (· ≤ ·) (rowOf (edgePairs nodes edges) i)).nodup_iff.2
    (nodup_rowOf (nodup_edgePairs h) i)
  exact (hle.and hnodup).imp fun hboth => lt_of_le_of_ne hboth.1 hboth.2

theorem length_neighborIndices (h : WellFormedGraph nodes edges) (hi : i < nodes.length) :
    ((builtGraph nodes edges).neighborIndices i).length ≤ maxCardinalNeighbors := by
  have hhandle : (nodes.map GraphNode.handle)[i]? = some nodes[i].handle := by
    rw [List.getElem?_map, List.getElem?_eq_getElem hi, Option.map_some]
  rw [neighborIndices_builtGraph hi, List.length_insertionSort,
    length_rowOf_edgePairs h.handles h.listed hhandle]
  exact h.degree _ (List.getElem_mem hi)

theorem Adjacent.symm (hwf : WellFormedGraph nodes edges) (h : Adjacent nodes edges i j) :
    Adjacent nodes edges j i := by
  obtain ⟨edge, hedge, hi, hj⟩ := h
  exact ⟨_, hwf.reciprocal edge hedge, hj, hi⟩

theorem Adjacent.lt (h : Adjacent nodes edges i j) : i < nodes.length ∧ j < nodes.length := by
  obtain ⟨edge, -, hi, hj⟩ := h
  exact ⟨length_lt_of_getElem? hi, length_lt_of_getElem? hj⟩

end Rows

end Dogmos
