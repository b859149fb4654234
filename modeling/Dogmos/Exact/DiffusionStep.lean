import Dogmos.Exact.Conductance
import Dogmos.Lib.Spread
import Dogmos.Numerics.Diffusion
import Dogmos.Numerics.Graph

/-!
# The reference diffusion step

`diffusion_step` goes through the nodes and, for each, through its gases and neighbours.

* `diffusionStep_eq` — in any arithmetic the step gives every node and gas the plain `stencil`: its
  own share, then that of each neighbour in ascending order.
* `stencil_eq_spread` — in exact arithmetic the stencil spreads an eighth of a value to each
  neighbour, so that `sum_stencil` and `stencil_mem` hold.
* `validateGraph_diffusion` — the graphs that are accepted, their rows and the step on them.
-/

namespace Dogmos

open Exec PackedRows Spread

/-! ## The plain stencil -/

section Plain

variable {F : Type} [FloatFormat F]

/-- The value a node gets of one gas: its own share, then that of each neighbour in order. -/
def stencil (graph : DiffusionGraph) (gasCount : Nat) (state : List F) (node gas : Nat) : F :=
  let adjacent := graph.neighborIndices node
  adjacent.foldl
    (fun sum neighbor => sum + state.getD (neighbor * gasCount + gas) 0.0 * gasDiffusionConstant)
    (state.getD (node * gasCount + gas) 0.0 *
      (1.0 - FloatFormat.ofNat adjacent.length * gasDiffusionConstant))

variable {graph : DiffusionGraph} {gasCount : Nat} {state : List F} {node : Nat}

/-- The row of a node as the values of its gases. -/
theorem stateRow_eq (hlength : state.length = graph.nodeCount * gasCount)
    (hnode : node < graph.nodeCount) :
    stateRow gasCount state node =
      (List.range gasCount).map fun gas => state.getD (node * gasCount + gas) 0.0 := by
  have hfits : (node + 1) * gasCount ≤ state.length := by
    rw [hlength]
    exact Nat.mul_le_mul_right _ hnode
  rw [Nat.add_one_mul] at hfits
  refine List.ext_getElem? fun gas => ?_
  rw [getElem?_map_range, stateRow, List.getElem?_take]
  split
  · next hgas =>
    rw [List.getElem?_drop, List.getD_eq_getElem?_getD, List.getElem?_eq_getElem (by omega),
      Option.getD_some]
  · rfl

theorem outputRow_eq (hlength : state.length = graph.nodeCount * gasCount)
    (hnode : node < graph.nodeCount) {adjacent : List Nat}
    (hadjacent : ∀ neighbor ∈ adjacent, neighbor < graph.nodeCount) (weight : F) :
    outputRow gasCount state node adjacent weight =
      (List.range gasCount).map fun gas => adjacent.foldl
        (fun sum neighbor => sum + state.getD (neighbor * gasCount + gas) 0.0 * gasDiffusionConstant)
        (state.getD (node * gasCount + gas) 0.0 * weight) := by
  have hrows : ∀ own : Nat → F,
      adjacent.foldl
        (fun output neighbor =>
          output.zipWith (fun sum value => sum + value * gasDiffusionConstant)
            (stateRow gasCount state neighbor)) ((List.range gasCount).map own) =
      (List.range gasCount).map fun gas => adjacent.foldl
        (fun sum neighbor => sum + state.getD (neighbor * gasCount + gas) 0.0 * gasDiffusionConstant)
        (own gas) := by
    induction adjacent with
    | nil => exact fun own => rfl
    | cons neighbor rest ih =>
      intro own
      rw [List.forall_mem_cons] at hadjacent
      rw [List.foldl_cons, stateRow_eq hlength hadjacent.1, List.zipWith_map, List.zipWith_self,
        ih hadjacent.2]
      rfl
  unfold outputRow
  rw [stateRow_eq hlength hnode, List.map_map]
  exact hrows _

/-- Every row of a graph lists nodes of the graph and is short enough. -/
def DiffusionGraph.Bounded (graph : DiffusionGraph) : Prop :=
  ∀ node < graph.nodeCount, (graph.neighborIndices node).length ≤ maxCardinalNeighbors ∧
    ∀ neighbor ∈ graph.neighborIndices node, neighbor < graph.nodeCount

theorem run_diffuseNode (hlength : state.length = graph.nodeCount * gasCount)
    (hbounded : graph.Bounded) (hnode : node < graph.nodeCount) (result : List F) :
    run (diffuseNode graph gasCount state (fun _ => false) node) result =
      (.ok ⟨⟩, result.take (node * gasCount) ++
        (List.range gasCount).map (stencil graph gasCount state node) ++
        result.drop ((node + 1) * gasCount)) := by
  obtain ⟨hfew, hadjacent⟩ := hbounded node hnode
  unfold diffuseNode
  dsimp only
  rw [Bool.and_false, if_neg Bool.false_ne_true, run_bind, run_check, selfWeight,
    if_neg (by omega)]
  dsimp only [pure, Except.pure]
  rw [run_modify, outputRow_eq hlength hnode hadjacent]
  rfl

/-- The rows after some nodes: theirs are written, the others are blank. -/
def writtenRows (graph : DiffusionGraph) (gasCount : Nat) (state : List F) (count : Nat) :
    List (List F) :=
  (List.range graph.nodeCount).map fun node =>
    if node < count then (List.range gasCount).map (stencil graph gasCount state node)
    else List.replicate gasCount 0.0

theorem length_of_mem_writtenRows {count : Nat} :
    ∀ row ∈ writtenRows graph gasCount state count, row.length = gasCount := by
  intro row hrow
  obtain ⟨node, -, rfl⟩ := List.mem_map.1 hrow
  split <;> simp

theorem start_writtenRows {count : Nat} (hnode : node ≤ graph.nodeCount) :
    start (writtenRows graph gasCount state count) node = node * gasCount :=
  start_uniform length_of_mem_writtenRows (by simpa [writtenRows] using hnode)

/-- The loop writes the row of each node. -/
theorem run_diffuseNodes (hlength : state.length = graph.nodeCount * gasCount)
    (hbounded : graph.Bounded) {count : Nat} (hcount : count ≤ graph.nodeCount) :
    run ((List.range count).forM (diffuseNode graph gasCount state fun _ => false))
        (writtenRows graph gasCount state 0).flatten =
      (.ok ⟨⟩, (writtenRows graph gasCount state count).flatten) := by
  induction count with
  | zero => rfl
  | succ count ih =>
    have hplace : count < (writtenRows graph gasCount state count).length := by
      simpa [writtenRows] using Nat.lt_of_succ_le hcount
    rw [List.range_succ, List.forM_eq_forM, List.forM_append, run_bind, ← List.forM_eq_forM,
      ih (by omega)]
    dsimp only
    rw [run_forM_cons, run_bind, run_diffuseNode hlength hbounded hcount,
      ← @start_writtenRows _ _ graph gasCount state count count (by omega),
      ← @start_writtenRows _ _ graph gasCount state (count + 1) count hcount, replace_flatten hplace]
    refine congrArg (fun rows => ((Except.ok ⟨⟩ : Except DiffusionError Unit), List.flatten rows)) ?_
    unfold writtenRows
    rw [set_map_range]
    refine List.map_congr_left fun node _ => ?_
    by_cases hnode : node = count
    · subst hnode
      simp
    · rw [if_neg hnode]
      have hless : node < count + 1 ↔ node < count := by omega
      simp only [hless]

/-- **The step is the plain stencil**, in any arithmetic. -/
theorem diffusionStep_eq {usizeBits : Nat} {gases : UInt32} (hbounded : graph.Bounded)
    (hlength : state.length = graph.nodeCount * gases.toNat) (hfits : state.length < 2 ^ usizeBits)
    (hvalid : ∀ value ∈ state, invalidStateValue value = false) :
    diffusionStep usizeBits graph gases state =
      .ok ((List.range graph.nodeCount).flatMap fun node =>
        (List.range gases.toNat).map (stencil graph gases.toNat state node)) := by
  have hspace : ¬2 ^ usizeBits ≤ graph.nodeCount * gases.toNat := by omega
  have hblank : List.replicate (graph.nodeCount * gases.toNat) (0.0 : F) =
      (writtenRows graph gases.toNat state 0).flatten := by
    simp [writtenRows]
  have hfound : state.findIdx? invalidStateValue = none :=
    List.findIdx?_eq_none_iff.2 hvalid
  have hrun : run (diffusionStepInto usizeBits graph gases state)
      (List.replicate (graph.nodeCount * gases.toNat) 0.0) =
        (.ok ⟨⟩, (writtenRows graph gases.toNat state graph.nodeCount).flatten) := by
    unfold diffusionStepInto diffusionStepIntoCancellable
    dsimp only
    rw [if_neg hspace, if_neg (not_not.2 hlength), run_bind, run_get]
    dsimp only
    rw [if_neg (by simp), hfound, hblank]
    exact run_diffuseNodes hlength hbounded le_rfl
  unfold diffusionStep
  dsimp only
  rw [if_neg hspace, hrun]
  dsimp only
  refine congrArg Except.ok ?_
  rw [List.flatMap_def, writtenRows]
  refine congrArg List.flatten (List.map_congr_left fun node hnode => ?_)
  rw [if_pos (List.mem_range.1 hnode)]

end Plain

/-! ## The exact step -/

section Exact

variable {graph : DiffusionGraph} {gasCount : Nat} {state : List ℚ} {node gas : Nat}

theorem exact_gasDiffusionConstant : (gasDiffusionConstant : ℚ) = 1 / 8 := by
  unfold gasDiffusionConstant
  norm_num

/-- In exact arithmetic the stencil spreads an eighth of a value to each neighbour. -/
theorem stencil_eq_spread (hnodup : (graph.neighborIndices node).Nodup) :
    stencil graph gasCount state node gas =
      spread (fun node => (graph.neighborIndices node).toFinset) (1 / 8)
        (fun node => valueAt state (node * gasCount + gas)) node := by
  have hfold : ∀ (adjacent : List Nat) (own : ℚ),
      adjacent.foldl (fun sum neighbor =>
        sum + valueAt state (neighbor * gasCount + gas) * (1 / 8)) own =
      own + (adjacent.map fun neighbor =>
        valueAt state (neighbor * gasCount + gas) * (1 / 8)).sum := by
    intro adjacent
    induction adjacent with
    | nil => exact fun own => (add_zero own).symm
    | cons neighbor rest ih =>
      intro own
      rw [List.foldl_cons, ih, List.map_cons, List.sum_cons, add_assoc]
  have hvalue : ∀ k, state.getD k 0.0 = valueAt state k := by
    intro k
    rw [List.getD_eq_getElem?_getD, valueAt_eq]
  unfold stencil spread
  simp only [hvalue, exact_gasDiffusionConstant, Exact.ofNat_eq]
  rw [hfold, List.sum_toFinset _ hnodup, List.toFinset_card_of_nodup hnodup]
  norm_num

theorem valueAt_flatMap {value : Nat → Nat → ℚ} {n : Nat} (hnode : node < n) (hgas : gas < gasCount) :
    valueAt ((List.range n).flatMap fun node => (List.range gasCount).map (value node))
      (node * gasCount + gas) = value node gas := by
  have hrows : ∀ row ∈ (List.range n).map fun node => (List.range gasCount).map (value node),
      row.length = gasCount := by
    intro row hrow
    obtain ⟨node, -, rfl⟩ := List.mem_map.1 hrow
    simp
  have hplace : node < ((List.range n).map fun node => (List.range gasCount).map (value node)).length := by
    simpa using hnode
  rw [List.flatMap_def, ← start_uniform hrows (Nat.le_of_lt hplace)]
  refine valueAt_of_getElem? ((getElem?_flatten hplace (by simpa using hgas)).trans ?_)
  simp

end Exact

/-! ## Validated graphs -/

section Validated

variable {nodes : List GraphNode} {edges : List DirectedEdge}

theorem bounded_builtGraph (h : WellFormedGraph nodes edges) : (builtGraph nodes edges).Bounded :=
  fun _ hnode => ⟨length_neighborIndices h hnode,
    fun _ hneighbor => ((mem_neighborIndices h hnode).1 hneighbor).lt.2⟩

theorem nodup_neighborIndices (h : WellFormedGraph nodes edges) {i : Nat} (hi : i < nodes.length) :
    ((builtGraph nodes edges).neighborIndices i).Nodup :=
  (pairwise_neighborIndices h hi).imp Nat.ne_of_lt

/-- The gas totals of a validated graph are kept. -/
theorem sum_stencil (h : WellFormedGraph nodes edges) (gasCount : Nat) (state : List ℚ) (gas : Nat) :
    ∑ i ∈ Finset.range nodes.length, stencil (builtGraph nodes edges) gasCount state i gas =
      ∑ i ∈ Finset.range nodes.length, valueAt state (i * gasCount + gas) := by
  have hsymm : ∀ i j, i ∈ Finset.range nodes.length ∧
      j ∈ ((builtGraph nodes edges).neighborIndices i).toFinset ↔
        i ∈ ((builtGraph nodes edges).neighborIndices j).toFinset ∧
          j ∈ Finset.range nodes.length := by
    intro i j
    simp only [Finset.mem_range, List.mem_toFinset]
    constructor
    · rintro ⟨hi, hj⟩
      have hadjacent := (mem_neighborIndices h hi).1 hj
      exact ⟨(mem_neighborIndices h hadjacent.lt.2).2 (hadjacent.symm h), hadjacent.lt.2⟩
    · rintro ⟨hi, hj⟩
      have hadjacent := (mem_neighborIndices h hj).1 hi
      exact ⟨hadjacent.lt.2, (mem_neighborIndices h hadjacent.lt.2).2 (hadjacent.symm h)⟩
  refine (Finset.sum_congr rfl fun i hi => ?_).trans (sum_spread (1 / 8) _ hsymm)
  exact stencil_eq_spread (nodup_neighborIndices h (Finset.mem_range.1 hi))

theorem stencil_mem (h : WellFormedGraph nodes edges) {gasCount : Nat} {state : List ℚ} {i gas : Nat}
    (hi : i < nodes.length) {lo hi' : ℚ}
    (hown : valueAt state (i * gasCount + gas) ∈ Set.Icc lo hi')
    (hothers : ∀ j, Adjacent nodes edges i j →
      valueAt state (j * gasCount + gas) ∈ Set.Icc lo hi') :
    stencil (builtGraph nodes edges) gasCount state i gas ∈ Set.Icc lo hi' := by
  have hnodup := nodup_neighborIndices h hi
  rw [stencil_eq_spread hnodup]
  refine spread_mem (by norm_num) ?_ hown fun j hj => ?_
  · rw [List.toFinset_card_of_nodup hnodup]
    have hfew : ((((builtGraph nodes edges).neighborIndices i).length : ℕ) : ℚ) ≤ (6 : ℕ) :=
      Nat.cast_le.2 (length_neighborIndices h hi)
    push_cast at hfew
    linarith
  · exact hothers j ((mem_neighborIndices h hi).1 (List.mem_toFinset.1 hj))

/-- **Validation and the reference step**: `validate_graph` accepts the well-formed graphs whose
edges fit 32 bits, and on their rows the step is the plain stencil, which keeps every gas total and
stays between a node and its neighbours. -/
theorem validateGraph_diffusion (nodes : List GraphNode) (edges : List DirectedEdge) :
    ((∃ graph, validateGraph nodes edges = .ok graph) ↔
      WellFormedGraph nodes edges ∧ edges.length < 2 ^ 32) ∧
    ∀ graph, validateGraph nodes edges = .ok graph →
      graph.nodes = nodes ∧
      (∀ i < nodes.length, (graph.neighborIndices i).Pairwise (· < ·) ∧
        ∀ j, j ∈ graph.neighborIndices i ↔ Adjacent nodes edges i j) ∧
      (∀ (F : Type) [FloatFormat F] (usizeBits : Nat) (gasCount : UInt32) (state : List F),
        state.length = nodes.length * gasCount.toNat → state.length < 2 ^ usizeBits →
        (∀ value ∈ state, invalidStateValue value = false) →
        diffusionStep usizeBits graph gasCount state =
          .ok ((List.range nodes.length).flatMap fun node =>
            (List.range gasCount.toNat).map (stencil graph gasCount.toNat state node))) ∧
      ∀ (usizeBits : Nat) (gasCount : UInt32) (state : List ℚ),
        state.length = nodes.length * gasCount.toNat → state.length < 2 ^ usizeBits →
        (∀ value ∈ state, 0 ≤ value) →
        ∃ result, diffusionStep usizeBits graph gasCount state = .ok result ∧
          ∀ gas < gasCount.toNat,
            ∑ i ∈ Finset.range nodes.length, valueAt result (i * gasCount.toNat + gas) =
              ∑ i ∈ Finset.range nodes.length, valueAt state (i * gasCount.toNat + gas) ∧
            ∀ i < nodes.length, ∀ lo hi, valueAt state (i * gasCount.toNat + gas) ∈ Set.Icc lo hi →
              (∀ j, Adjacent nodes edges i j →
                valueAt state (j * gasCount.toNat + gas) ∈ Set.Icc lo hi) →
              valueAt result (i * gasCount.toNat + gas) ∈ Set.Icc lo hi := by
  constructor
  · constructor
    · rintro ⟨graph, h⟩
      exact ⟨(validateGraph_eq_ok.1 h).1, (validateGraph_eq_ok.1 h).2.1⟩
    · exact fun ⟨hwf, hspace⟩ => ⟨_, validateGraph_eq_ok.2 ⟨hwf, hspace, rfl⟩⟩
  intro graph h
  obtain ⟨hwf, -, rfl⟩ := validateGraph_eq_ok.1 h
  have hbounded := bounded_builtGraph hwf
  refine ⟨rfl, fun i hi => ⟨pairwise_neighborIndices hwf hi, fun j => mem_neighborIndices hwf hi⟩,
    fun F _ usizeBits gasCount state hlength hfits hvalid =>
      diffusionStep_eq hbounded hlength hfits hvalid, ?_⟩
  intro usizeBits gasCount state hlength hfits hnonneg
  have hvalid : ∀ value ∈ state, invalidStateValue value = false := by
    intro value hvalue
    unfold invalidStateValue
    rw [Exact.isFinite_eq, Bool.not_true, Bool.false_or, exact_zero, decide_eq_false_iff_not]
    exact not_lt.2 (hnonneg value hvalue)
  refine ⟨_, diffusionStep_eq hbounded hlength hfits hvalid, fun gas hgas => ⟨?_, ?_⟩⟩
  · refine (Finset.sum_congr rfl fun i hi => ?_).trans (sum_stencil hwf gasCount.toNat state gas)
    exact valueAt_flatMap (Finset.mem_range.1 hi) hgas
  · intro i hi lo hi' hown hothers
    have hvalue : valueAt ((List.range (builtGraph nodes edges).nodeCount).flatMap fun node =>
        (List.range gasCount.toNat).map (stencil (builtGraph nodes edges) gasCount.toNat state node))
        (i * gasCount.toNat + gas) = stencil (builtGraph nodes edges) gasCount.toNat state i gas :=
      valueAt_flatMap hi hgas
    exact hvalue ▸ stencil_mem hwf hi hown hothers

/-! ## Too many edges -/

/-- The other node of a pair. -/
def partner (i : Nat) : Nat := if i % 2 = 0 then i + 1 else i - 1

/-- So many nodes. -/
def pairedNodes (n : Nat) : List GraphNode :=
  (List.range n).map fun i => ⟨UInt32.ofNat i, 0, some ⟨UInt32.ofNat i, 0⟩⟩

/-- The edges that join the nodes in pairs. -/
def pairedEdges (n : Nat) : List DirectedEdge :=
  (List.range n).map fun i => ⟨UInt32.ofNat i, UInt32.ofNat (partner i)⟩

theorem toNat_ofNat_of_lt {n i : Nat} (hn : n ≤ 2 ^ 32) (hi : i < n) : (UInt32.ofNat i).toNat = i :=
  UInt32.toNat_ofNat_of_lt' (Nat.lt_of_lt_of_le hi hn)

theorem ofNat_inj {n i j : Nat} (hn : n ≤ 2 ^ 32) (hi : i < n) (hj : j < n)
    (h : UInt32.ofNat i = UInt32.ofNat j) : i = j := by
  rw [← toNat_ofNat_of_lt hn hi, ← toNat_ofNat_of_lt hn hj, h]

theorem partner_lt {n i : Nat} (heven : n % 2 = 0) (hi : i < n) :
    partner i < n ∧ partner i ≠ i ∧ partner (partner i) = i := by
  unfold partner
  split <;> split <;> omega

/-- Nodes in pairs are a well-formed graph. -/
theorem wellFormedGraph_paired {n : Nat} (hn : n ≤ 2 ^ 32) (heven : n % 2 = 0) :
    WellFormedGraph (pairedNodes n) (pairedEdges n) := by
  have hhandles : (pairedNodes n).map GraphNode.handle = (List.range n).map UInt32.ofNat := by
    rw [pairedNodes, List.map_map]
    rfl
  have hmem : ∀ {edge}, edge ∈ pairedEdges n →
      ∃ i < n, edge = ⟨UInt32.ofNat i, UInt32.ofNat (partner i)⟩ := by
    intro edge hedge
    obtain ⟨i, hi, rfl⟩ := List.mem_map.1 hedge
    exact ⟨i, List.mem_range.1 hi, rfl⟩
  have hnodup : ((List.range n).map UInt32.ofNat).Nodup :=
    List.Nodup.map_on (fun i hi j hj h =>
      ofNat_inj hn (List.mem_range.1 hi) (List.mem_range.1 hj) h) List.nodup_range
  refine ⟨fun node hnode => ?_, hhandles ▸ hnodup, fun edge hedge => ?_, fun edge hedge => ?_, ?_,
    fun edge hedge => ?_, fun node hnode => ?_⟩
  · obtain ⟨i, -, rfl⟩ := List.mem_map.1 hnode
    rfl
  · obtain ⟨i, hi, rfl⟩ := hmem hedge
    rw [hhandles]
    exact ⟨List.mem_map_of_mem (List.mem_range.2 hi),
      List.mem_map_of_mem (List.mem_range.2 (partner_lt heven hi).1)⟩
  · obtain ⟨i, hi, rfl⟩ := hmem hedge
    obtain ⟨hlt, hne, -⟩ := partner_lt heven hi
    exact fun h => hne (ofNat_inj hn hi hlt h).symm
  · refine List.Nodup.of_map DirectedEdge.source ?_
    rw [pairedEdges, List.map_map]
    exact hnodup
  · obtain ⟨i, hi, rfl⟩ := hmem hedge
    obtain ⟨hlt, -, hback⟩ := partner_lt heven hi
    exact List.mem_map.2 ⟨partner i, List.mem_range.2 hlt, by rw [hback]⟩
  · -- the edges of one node come from one number
    obtain ⟨k, hk, rfl⟩ := List.mem_map.1 hnode
    have hsub : ((List.range n).filter fun i => UInt32.ofNat i = UInt32.ofNat k) ⊆ [k] := by
      intro i hi
      obtain ⟨hlt, heq⟩ := List.mem_filter.1 hi
      exact List.mem_singleton.2
        (ofNat_inj hn (List.mem_range.1 hlt) (List.mem_range.1 hk) (of_decide_eq_true heq))
    unfold pairedEdges
    rw [List.filter_map, List.length_map]
    have hone := (List.subperm_of_subset (List.nodup_range.filter _) hsub).length_le
    exact hone.trans (Nat.succ_le_of_lt (by decide : 0 < maxCardinalNeighbors))

/-- Not every well-formed graph is accepted: with 2^32 edges the offsets do not fit. -/
theorem validateGraph_refuses_wellFormed :
    ¬∀ nodes edges, (∃ graph, validateGraph nodes edges = .ok graph) ↔ WellFormedGraph nodes edges := by
  intro h
  obtain ⟨graph, hgraph⟩ := (h (pairedNodes (2 ^ 32)) (pairedEdges (2 ^ 32))).2
    (wellFormedGraph_paired le_rfl (by norm_num))
  have hspace := (validateGraph_eq_ok.1 hgraph).2.1
  rw [pairedEdges, List.length_map, List.length_range] at hspace
  exact lt_irrefl _ hspace

end Validated

end Dogmos
