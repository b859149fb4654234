import Dogmos.Exact.Conductance

/-!
# The edges of a heat stage

A heat stage captures turfs as nodes and then walks over the rows of the topology, one neighbour at
a time.  Each time it meets a captured neighbour with a larger number it adds an edge, with the
weights of both ends, and adds the weights to the row sums of the ends.

* `keeps_heatCaptured_prepareStageHeatTurf` — capturing keeps `HeatReady`: every turf has one node,
  and the numbers of the scratch are those of the nodes.
* `Walked.advance` — one unit of the walk keeps `Walked`: the edges are those that the part of the
  rows behind the walk gives, in order, and no row sum is less than the weight of an edge.
* `Walked.mem_edges_iff`, `Walked.nodup_edges` — at the end of the walk two captured turfs that are
  heat neighbours have exactly one edge.
-/

namespace Dogmos

open DogmosWorld Exec Relaxation

/-! ## Captured turfs -/

/-- Scratch that captured its turfs and nothing more: every turf has one node, and the numbers are
those of the nodes. -/
structure HeatReady (state : StageHeatState ℚ) : Prop where
  indexed : ∀ slot i, state.indexBySlot.get slot = some i ↔
    (state.nodes.map fun node => node.handle.slot)[i]? = some slot
  temperatures : state.temperatures = state.nodes.map fun node => node.heat.temperature
  conductivities : state.conductivities = state.nodes.map fun node => node.heat.thermalConductivity
  heatCapacities : state.heatCapacities = state.nodes.map fun node => node.heat.heatCapacity
  rowSums : state.rowSums = state.nodes.map fun _ => 0
  edges : state.edges = []
  maximumRowSum : state.maximumRowSum = 0
  topologyNode : state.nextTopologyNode = 0
  topologyNeighbor : state.nextTopologyNeighbor = 0
  substeps : state.conductionSubsteps = none
  substep : state.conductionSubstep = 0
  edge : state.conductionEdge = 0

section Ready

variable {state : StageHeatState ℚ}

theorem heatReady_new (publication : PublicationId) :
    HeatReady (StageHeatState.new publication) := by
  refine ⟨fun slot i => ?_, rfl, rfl, rfl, rfl, rfl, exact_zero, rfl, rfl, rfl, rfl, rfl⟩
  simp [StageHeatState.new]

theorem HeatReady.captured (h : HeatReady state) {handle : TurfHandle} (heat : TurfHeatState ℚ)
    (mixture : Option MixtureHandle) (canContinue : Bool)
    (hnew : state.indexBySlot.get handle.slot = none) :
    HeatReady (capturedHeatTurf state handle heat mixture canContinue) := by
  refine ⟨fun slot i => ?_, ?_, ?_, ?_, ?_, h.edges, h.maximumRowSum, h.topologyNode,
    h.topologyNeighbor, h.substeps, h.substep, h.edge⟩
  · unfold capturedHeatTurf
    dsimp only
    rw [SlotIndex.get_insert, List.map_append, List.getElem?_append, List.length_map]
    have hold := h.indexed slot i
    by_cases hslot : slot = handle.slot
    · subst hslot
      rw [hnew] at hold
      rw [if_pos rfl, if_pos rfl]
      by_cases hi : i < state.nodes.length
      · rw [if_pos hi, ← hold]
        refine iff_of_false (fun heq => ?_) fun heq => by cases heq
        cases heq
        exact absurd hi (lt_irrefl _)
      · rw [if_neg hi]
        rcases Nat.lt_or_ge state.nodes.length i with hlt | hge
        · rw [List.getElem?_eq_none (by simp; omega)]
          refine iff_of_false (fun heq => ?_) fun heq => by cases heq
          cases heq
          exact absurd hlt (lt_irrefl _)
        · obtain rfl : i = state.nodes.length := by omega
          simp
    · have hne : ¬SlotKey.slot slot = SlotKey.slot handle.slot :=
        fun heq => hslot (UInt32.toNat_inj.1 heq)
      rw [if_neg hne, hold]
      by_cases hi : i < state.nodes.length
      · rw [if_pos hi]
      · rw [if_neg hi, List.getElem?_eq_none (by simpa using hi)]
        refine iff_of_false (fun heq => by cases heq) fun heq => hslot ?_
        have hmem := List.mem_of_getElem? heq
        simpa using hmem
  · simp [capturedHeatTurf, h.temperatures]
  · simp [capturedHeatTurf, h.conductivities]
  · simp [capturedHeatTurf, h.heatCapacities]
  · simp [capturedHeatTurf, h.rowSums]

theorem HeatReady.continued (h : HeatReady state) (index : Nat) (canContinue : Bool) :
    HeatReady { state with
      nodes := state.nodes.modify index fun node =>
        { node with canContinue := node.canContinue || canContinue } } := by
  have hsame : ∀ {α : Type} (g : StageHeatNode ℚ → α),
      (∀ node, g { node with canContinue := node.canContinue || canContinue } = g node) →
      (state.nodes.modify index fun node =>
        { node with canContinue := node.canContinue || canContinue }).map g = state.nodes.map g :=
    fun g hg => map_modify_of_same hg state.nodes index
  refine ⟨fun slot i => ?_, ?_, ?_, ?_, ?_, h.edges, h.maximumRowSum, h.topologyNode,
    h.topologyNeighbor, h.substeps, h.substep, h.edge⟩
  · dsimp only
    rw [hsame (fun node => node.handle.slot) fun _ => rfl]
    exact h.indexed slot i
  · exact h.temperatures.trans (hsame (fun node => node.heat.temperature) fun _ => rfl).symm
  · exact h.conductivities.trans
      (hsame (fun node => node.heat.thermalConductivity) fun _ => rfl).symm
  · exact h.heatCapacities.trans (hsame (fun node => node.heat.heatCapacity) fun _ => rfl).symm
  · exact h.rowSums.trans (hsame (fun _ => (0 : ℚ)) fun _ => rfl).symm

end Ready

/-- The scratch of a heat stage that is capturing turfs. -/
def DogmosWorld.HeatCaptured (w : DogmosWorld ℚ) : Prop :=
  ∀ state, w.stageHeat = some state → HeatReady state

/-- A turf is captured, once. -/
theorem keeps_heatCaptured_prepareStageHeatTurf (turf : TurfHandle) (canContinue : Bool) :
    Keeps HeatCaptured (prepareStageHeatTurf (F := ℚ) turf canContinue) := by
  have happend : ∀ (turf : TurfHandle) (canContinue : Bool),
      Keeps HeatCaptured (appendStageHeatTurf (F := ℚ) turf canContinue) := by
    intro turf canContinue w hw
    unfold appendStageHeatTurf heatState
    rw [run_bind, run_get]
    dsimp only
    rcases w.capturableHeat turf with _ | ⟨mixture, heat⟩
    · exact hw
    dsimp only
    rw [run_bind, run_check]
    rcases hstate : w.stageHeat with _ | state
    · exact hw
    dsimp only [pure, Except.pure]
    rcases hindex : state.indexBySlot.get turf.slot with _ | index
    · dsimp only
      by_cases hlength : 2 ^ 32 ≤ state.nodes.length
      · rw [if_pos hlength]
        exact hw
      · rw [if_neg hlength, run_bind]
        intro found hfound
        have hheat : (DogmosWorld.prepareHeatRecords
            { w with stageHeat := some (capturedHeatTurf state turf heat mixture canContinue) }
            state.publication turf mixture).stageHeat =
              some (capturedHeatTurf state turf heat mixture canContinue) :=
          stageHeat_prepareHeatRecords turf mixture
        have hsame := hheat.symm.trans hfound
        cases hsame
        exact (hw state hstate).captured heat mixture canContinue hindex
    · intro found hfound
      cases hfound
      exact (hw state hstate).continued index canContinue
  unfold prepareStageHeatTurf
  refine keeps_get_bind fun v => keeps_bind (happend turf canContinue) fun _ => ?_
  exact keeps_forM fun neighbor _ => happend neighbor.handle true

/-! ## The walk -/

/-- The ends of an edge. -/
def HeatEdge.pair (edge : HeatEdge ℚ) : Nat × Nat := (edge.first, edge.second)

/-- The weight of one end of an edge between two nodes. -/
def nodeWeight (state : StageHeatState ℚ) (first second : Nat) : ℚ :=
  rowWeight (valueAt state.conductivities first) (valueAt state.conductivities second)
    (valueAt state.heatCapacities first) (valueAt state.heatCapacities second)

theorem edgeWeight_eq_ok {state : StageHeatState ℚ} {first second : Nat} {weight : ℚ}
    (h : edgeWeight state first second = .ok weight) :
    weight = nodeWeight state first second ∧ 0 ≤ weight := by
  unfold edgeWeight at h
  simp only [valueAt_eq] at h
  rcases hweight : heatRowWeight (valueAt state.conductivities first)
    (valueAt state.conductivities second) (valueAt state.heatCapacities first)
    (valueAt state.heatCapacities second) with error | found
  · rw [hweight] at h
    cases h
  · rw [hweight] at h
    cases h
    obtain ⟨hk, hl, ha, hb, rfl⟩ := heatRowWeight_eq_ok.1 hweight
    exact ⟨rfl, rowWeight_nonneg hk hl ha hb⟩

section Walk

variable (topology : PackedTopology) (state : StageHeatState ℚ)

/-- The neighbours in the row of a node. -/
def nodeNeighbors (i : Nat) : List TopologyNeighbor :=
  (state.nodes[i]?.map fun node => topology.heatNeighbors node.handle).getD []

/-- The edges that neighbours of a node give: those to captured turfs with a larger number. -/
def neighborPairs (i : Nat) (neighbors : List TopologyNeighbor) : List (Nat × Nat) :=
  neighbors.filterMap fun neighbor => (state.indexBySlot.get neighbor.handle.slot).bind fun j =>
    if i < j then some (i, j) else none

/-- The edges of the rows before a node and of some neighbours in its own. -/
def walkedPairs (node neighbor : Nat) : List (Nat × Nat) :=
  (List.range node).flatMap (fun i => neighborPairs state i (nodeNeighbors topology state i)) ++
    neighborPairs state node ((nodeNeighbors topology state node).take neighbor)

theorem walkedPairs_next {node neighbor : Nat}
    (h : (nodeNeighbors topology state node)[neighbor]? = none) :
    walkedPairs topology state (node + 1) 0 = walkedPairs topology state node neighbor := by
  unfold walkedPairs
  rw [List.range_succ, List.flatMap_append, List.take_of_length_le (List.getElem?_eq_none_iff.1 h)]
  simp [neighborPairs]

theorem walkedPairs_step {node neighbor : Nat} {entry : TopologyNeighbor}
    (h : (nodeNeighbors topology state node)[neighbor]? = some entry) :
    walkedPairs topology state node (neighbor + 1) =
      walkedPairs topology state node neighbor ++ neighborPairs state node [entry] := by
  unfold walkedPairs
  rw [List.take_add_one, h, List.append_assoc]
  simp [neighborPairs]

variable {topology state}

theorem mem_neighborPairs {i : Nat} {neighbors : List TopologyNeighbor} {pair : Nat × Nat} :
    pair ∈ neighborPairs state i neighbors ↔ pair.1 = i ∧ i < pair.2 ∧
      ∃ neighbor ∈ neighbors, state.indexBySlot.get neighbor.handle.slot = some pair.2 := by
  obtain ⟨first, second⟩ := pair
  unfold neighborPairs
  simp only [List.mem_filterMap, Option.bind_eq_some_iff]
  constructor
  · rintro ⟨neighbor, hneighbor, j, hj, hpair⟩
    split at hpair
    · next hlt =>
      cases hpair
      exact ⟨rfl, hlt, neighbor, hneighbor, hj⟩
    · cases hpair
  · rintro ⟨rfl, hlt, neighbor, hneighbor, hj⟩
    exact ⟨neighbor, hneighbor, second, hj, if_pos hlt⟩

end Walk

/-- What the walk over the rows found so far: `ready` is the scratch it started from. -/
structure Walked (topology : PackedTopology) (ready state : StageHeatState ℚ) : Prop where
  frame : state = { ready with
    nextTopologyNode := state.nextTopologyNode
    nextTopologyNeighbor := state.nextTopologyNeighbor
    edges := state.edges
    rowSums := state.rowSums
    maximumRowSum := state.maximumRowSum }
  pairs : state.edges.map HeatEdge.pair =
    walkedPairs topology ready state.nextTopologyNode state.nextTopologyNeighbor
  distinct : ∀ edge ∈ state.edges, edge.first < edge.second ∧ edge.second < ready.nodes.length
  weights : ∀ edge ∈ state.edges, edge.firstWeight = nodeWeight ready edge.first edge.second ∧
    edge.secondWeight = nodeWeight ready edge.second edge.first
  nonneg : ∀ edge ∈ state.edges, 0 ≤ edge.firstWeight ∧ 0 ≤ edge.secondWeight
  length : state.rowSums.length = ready.nodes.length
  covered : ∀ edge ∈ state.edges, edge.firstWeight ≤ valueAt state.rowSums edge.first ∧
    edge.secondWeight ≤ valueAt state.rowSums edge.second
  bounded : ∀ i, 0 ≤ valueAt state.rowSums i ∧ valueAt state.rowSums i ≤ state.maximumRowSum

section Advance

variable {topology : PackedTopology} {ready state : StageHeatState ℚ} {w v : DogmosWorld ℚ}

theorem HeatReady.walked (h : HeatReady ready) (topology : PackedTopology) :
    Walked topology ready ready := by
  have hzero : ∀ i, valueAt ready.rowSums i = 0 := by
    intro i
    unfold valueAt
    rw [h.rowSums, List.getElem?_map]
    rcases ready.nodes[i]? with _ | node <;> rfl
  refine ⟨rfl, ?_, ?_, ?_, ?_, by rw [h.rowSums, List.length_map], ?_, fun i => ?_⟩
  · rw [h.edges, h.topologyNode, h.topologyNeighbor]
    simp [walkedPairs, neighborPairs]
  · simp [h.edges]
  · simp [h.edges]
  · simp [h.edges]
  · simp [h.edges]
  · rw [hzero, h.maximumRowSum]
    exact ⟨le_rfl, le_rfl⟩

/-- The walk moves on without an edge. -/
theorem Walked.moved (h : Walked topology ready state) (node neighbor : Nat)
    (hpairs : walkedPairs topology ready node neighbor =
      walkedPairs topology ready state.nextTopologyNode state.nextTopologyNeighbor) :
    Walked topology ready
      { state with nextTopologyNode := node, nextTopologyNeighbor := neighbor } := by
  refine ⟨?_, h.pairs.trans hpairs.symm, h.distinct, h.weights, h.nonneg, h.length, h.covered,
    h.bounded⟩
  dsimp only
  rw [h.frame]

/-- The row sums after an edge is added. -/
theorem rowSums_addHeatEdge {first second : Nat} {firstWeight secondWeight : ℚ}
    (hne : first ≠ second) (hfirst : first < state.rowSums.length)
    (hsecond : second < state.rowSums.length) :
    let added := addHeatEdge state first second firstWeight secondWeight
    added.rowSums.length = state.rowSums.length ∧
      (∀ i, valueAt added.rowSums i = valueAt state.rowSums i +
        (if i = first then firstWeight else 0) + if i = second then secondWeight else 0) ∧
      added.maximumRowSum = max (max state.maximumRowSum (valueAt state.rowSums first + firstWeight))
        (valueAt state.rowSums second + secondWeight) := by
  dsimp only [addHeatEdge]
  simp only [valueAt_eq, Exact.fmax_eq, List.length_set]
  have hadded := valueAt_added hfirst hsecond firstWeight secondWeight
  refine ⟨trivial, hadded, ?_⟩
  rw [hadded, hadded, if_pos rfl, if_neg hne, if_neg hne.symm, if_pos rfl, add_zero, add_zero]

/-- An edge between two nodes is added. -/
theorem Walked.added (h : Walked topology ready state) {neighbor : Nat} {first second : Nat}
    (hlt : first < second) (hsecond : second < ready.nodes.length)
    (hpairs : walkedPairs topology ready state.nextTopologyNode neighbor =
      walkedPairs topology ready state.nextTopologyNode state.nextTopologyNeighbor ++
        [(first, second)])
    (hfirstNonneg : 0 ≤ nodeWeight ready first second)
    (hsecondNonneg : 0 ≤ nodeWeight ready second first) :
    Walked topology ready (addHeatEdge { state with nextTopologyNeighbor := neighbor } first second
      (nodeWeight ready first second) (nodeWeight ready second first)) := by
  obtain ⟨hlength, hsums, hmaximum⟩ := @rowSums_addHeatEdge
    { state with nextTopologyNeighbor := neighbor } first second (nodeWeight ready first second)
    (nodeWeight ready second first) hlt.ne (by rw [h.length]; omega) (by rw [h.length]; omega)
  have hgrown : ∀ i, valueAt state.rowSums i ≤ valueAt (addHeatEdge
      { state with nextTopologyNeighbor := neighbor } first second
      (nodeWeight ready first second) (nodeWeight ready second first)).rowSums i := by
    intro i
    rw [hsums]
    have hone : 0 ≤ if i = first then nodeWeight ready first second else 0 := by
      split
      · exact hfirstNonneg
      · exact le_rfl
    have htwo : 0 ≤ if i = second then nodeWeight ready second first else 0 := by
      split
      · exact hsecondNonneg
      · exact le_rfl
    show valueAt state.rowSums i ≤ valueAt state.rowSums i + _ + _
    linarith
  have hnew : ∀ edge ∈ (addHeatEdge { state with nextTopologyNeighbor := neighbor } first second
      (nodeWeight ready first second) (nodeWeight ready second first)).edges,
      edge ∈ state.edges ∨ edge = ⟨first, second, nodeWeight ready first second,
        nodeWeight ready second first⟩ := by
    intro edge hedge
    rcases List.mem_append.1 hedge with hold | hadded
    · exact .inl hold
    · exact .inr (List.mem_singleton.1 hadded)
  refine ⟨?_, ?_, fun edge hedge => ?_, fun edge hedge => ?_, fun edge hedge => ?_,
    hlength.trans h.length, fun edge hedge => ?_, fun i => ⟨?_, ?_⟩⟩
  · unfold addHeatEdge
    dsimp only
    rw [h.frame]
  · unfold addHeatEdge
    dsimp only
    rw [List.map_append, h.pairs, hpairs]
    rfl
  · rcases hnew edge hedge with hold | rfl
    · exact h.distinct edge hold
    · exact ⟨hlt, hsecond⟩
  · rcases hnew edge hedge with hold | rfl
    · exact h.weights edge hold
    · exact ⟨rfl, rfl⟩
  · rcases hnew edge hedge with hold | rfl
    · exact h.nonneg edge hold
    · exact ⟨hfirstNonneg, hsecondNonneg⟩
  · rcases hnew edge hedge with hold | rfl
    · obtain ⟨hfirst, hsecond⟩ := h.covered edge hold
      exact ⟨hfirst.trans (hgrown _), hsecond.trans (hgrown _)⟩
    · have hfirst := (h.bounded first).1
      have hsecond := (h.bounded second).1
      rw [hsums, hsums, if_pos rfl, if_neg hlt.ne, if_neg hlt.ne', if_pos rfl]
      constructor
      · show nodeWeight ready first second ≤ valueAt state.rowSums first + _ + _
        linarith
      · show nodeWeight ready second first ≤ valueAt state.rowSums second + _ + _
        linarith
  · exact (h.bounded i).1.trans (hgrown i)
  · rw [hsums, hmaximum]
    show valueAt state.rowSums i + _ + _ ≤ max (max state.maximumRowSum
      (valueAt state.rowSums first + _)) (valueAt state.rowSums second + _)
    by_cases hi : i = first
    · subst hi
      rw [if_pos rfl, if_neg hlt.ne, add_zero]
      exact le_max_of_le_left (le_max_right ..)
    · by_cases hi' : i = second
      · subst hi'
        rw [if_neg hi, if_pos rfl, add_zero]
        exact le_max_right ..
      · rw [if_neg hi, if_neg hi', add_zero, add_zero]
        exact le_max_of_le_left (le_max_of_le_left (h.bounded i).2)

theorem Walked.nodes (h : Walked topology ready state) : state.nodes = ready.nodes := by
  have hnodes := congrArg StageHeatState.nodes h.frame
  exact hnodes

theorem Walked.indexBySlot (h : Walked topology ready state) :
    state.indexBySlot = ready.indexBySlot := by
  have hindex := congrArg StageHeatState.indexBySlot h.frame
  exact hindex

theorem Walked.nodeWeight (h : Walked topology ready state) (first second : Nat) :
    nodeWeight state first second = nodeWeight ready first second := by
  unfold Dogmos.nodeWeight
  rw [congrArg StageHeatState.conductivities h.frame, congrArg StageHeatState.heatCapacities h.frame]

/-- **One unit of the walk.** -/
theorem Walked.advance (hready : HeatReady ready) (h : Walked w.topology ready state)
    (hstate : w.stageHeat = some state) :
    Leaves w (advanceStageHeatTopology (F := ℚ)) fun _ v =>
      ∃ state', v = { w with stageHeat := some state' } ∧ Walked w.topology ready state' := by
  unfold advanceStageHeatTopology
  refine leaves_heatState_bind hstate (leaves_get_bind ?_)
  rcases hnode : state.nodes[state.nextTopologyNode]? with _ | node
  · exact leaves_pure ⟨state, by rw [← hstate], h⟩
  dsimp only
  have hrow : nodeNeighbors w.topology ready state.nextTopologyNode =
      w.topology.heatNeighbors node.handle := by
    unfold nodeNeighbors
    rw [← h.nodes, hnode]
    rfl
  rcases hentry : (w.topology.heatNeighbors node.handle)[state.nextTopologyNeighbor]? with
    _ | neighbor
  · dsimp only [setHeat]
    refine leaves_modify_bind (leaves_pure ⟨_, rfl, h.moved _ _ ?_⟩)
    exact walkedPairs_next _ _ (by rw [hrow]; exact hentry)
  dsimp only [setHeat]
  refine leaves_modify_bind ?_
  have hstep : walkedPairs w.topology ready state.nextTopologyNode (state.nextTopologyNeighbor + 1) =
      walkedPairs w.topology ready state.nextTopologyNode state.nextTopologyNeighbor ++
        neighborPairs ready state.nextTopologyNode [neighbor] :=
    walkedPairs_step w.topology ready (by rw [hrow]; exact hentry)
  have hfirst : state.indexBySlot.get node.handle.slot = some state.nextTopologyNode := by
    rw [h.indexBySlot, hready.indexed, List.getElem?_map, ← h.nodes, hnode]
    rfl
  -- no edge, when the neighbour gives no pair
  have hmoved : neighborPairs ready state.nextTopologyNode [neighbor] = [] →
      Walked w.topology ready
        { state with nextTopologyNeighbor := state.nextTopologyNeighbor + 1 } := fun hnone =>
    h.moved state.nextTopologyNode (state.nextTopologyNeighbor + 1)
      (by rw [hstep, hnone, List.append_nil])
  rcases hsecond : state.indexBySlot.get neighbor.handle.slot with _ | second
  · refine leaves_pure ⟨_, rfl, hmoved ?_⟩
    simp [neighborPairs, ← h.indexBySlot, hsecond]
  · rw [hfirst]
    dsimp only
    refine leaves_ite (fun hle => leaves_pure ⟨_, rfl, hmoved ?_⟩) fun hlt => ?_
    · simp [neighborPairs, ← h.indexBySlot, hsecond, hle]
    · refine leaves_check_bind fun firstWeight hfirstWeight => ?_
      refine leaves_check_bind fun secondWeight hsecondWeight => ?_
      refine leaves_modify_bind (leaves_pure ⟨_, rfl, ?_⟩)
      obtain ⟨hfirstValue, hfirstNonneg⟩ := edgeWeight_eq_ok hfirstWeight
      obtain ⟨hsecondValue, hsecondNonneg⟩ := edgeWeight_eq_ok hsecondWeight
      have hfirstSame : firstWeight = Dogmos.nodeWeight ready state.nextTopologyNode second :=
        hfirstValue.trans (h.nodeWeight _ _)
      have hsecondSame : secondWeight = Dogmos.nodeWeight ready second state.nextTopologyNode :=
        hsecondValue.trans (h.nodeWeight _ _)
      subst hfirstSame
      subst hsecondSame
      refine h.added (Nat.lt_of_not_le hlt) ?_ ?_ hfirstNonneg hsecondNonneg
      · have hplace := (hready.indexed neighbor.handle.slot second).1 (by rw [← h.indexBySlot, hsecond])
        have hlength := (List.getElem?_eq_some_iff.1 hplace).1
        rwa [List.length_map] at hlength
      · rw [hstep]
        simp [neighborPairs, ← h.indexBySlot, hsecond, Nat.lt_of_not_le hlt]

end Advance

/-! ## The end of the walk -/

/-- Two captured turfs that are neighbours in the row of the first. -/
def HeatLinked (topology : PackedTopology) (state : StageHeatState ℚ) (i j : Nat) : Prop :=
  ∃ a b, state.nodes[i]? = some a ∧ state.nodes[j]? = some b ∧
    ∃ neighbor ∈ topology.heatNeighbors a.handle, neighbor.handle.slot = b.handle.slot

section Edges

variable {topology : PackedTopology} {ready state : StageHeatState ℚ} {ok : Occupancy} {i j : Nat}

/-- Rows mirror each other, so neither order of the two turfs is special. -/
theorem HeatLinked.symm (hjoined : Dogmos.Joined ok topology) (h : HeatLinked topology ready i j) :
    HeatLinked topology ready j i := by
  obtain ⟨a, b, ha, hb, neighbor, hneighbor, hslot⟩ := h
  obtain ⟨generation, hmirror⟩ := hjoined.mirrored true a.handle.slot neighbor hneighbor
  refine ⟨b, a, hb, ha, ⟨⟨a.handle.slot, generation⟩, neighbor.firelock⟩, ?_, rfl⟩
  unfold PackedTopology.heatNeighbors
  rw [← hslot]
  exact hmirror

theorem mem_nodeNeighbors (hready : HeatReady ready) :
    (∃ neighbor ∈ nodeNeighbors topology ready i,
      ready.indexBySlot.get neighbor.handle.slot = some j) ↔ HeatLinked topology ready i j := by
  unfold nodeNeighbors HeatLinked
  constructor
  · rintro ⟨neighbor, hneighbor, hindex⟩
    rcases ha : ready.nodes[i]? with _ | a
    · rw [ha] at hneighbor
      cases hneighbor
    · rw [ha] at hneighbor
      rw [hready.indexed, List.getElem?_map] at hindex
      obtain ⟨b, hb, hslot⟩ := Option.map_eq_some_iff.1 hindex
      exact ⟨a, b, rfl, hb, neighbor, hneighbor, hslot.symm⟩
  · rintro ⟨a, b, ha, hb, neighbor, hneighbor, hslot⟩
    refine ⟨neighbor, ?_, ?_⟩
    · rw [ha]
      exact hneighbor
    · rw [hready.indexed, List.getElem?_map, hb, hslot]
      rfl

/-- When every row was walked, the edges are the captured neighbours. -/
theorem Walked.mem_edges_iff (hready : HeatReady ready) (h : Walked topology ready state)
    (hdone : ready.nodes.length ≤ state.nextTopologyNode) :
    (i, j) ∈ state.edges.map HeatEdge.pair ↔ i < j ∧ HeatLinked topology ready i j := by
  rw [h.pairs, ← mem_nodeNeighbors hready]
  unfold walkedPairs
  have hnone : nodeNeighbors topology ready state.nextTopologyNode = [] := by
    unfold nodeNeighbors
    rw [List.getElem?_eq_none hdone]
    rfl
  rw [hnone, List.take_nil, List.mem_append, List.mem_flatMap]
  simp only [mem_neighborPairs, List.not_mem_nil, false_and, exists_false, and_false, or_false,
    List.mem_range]
  constructor
  · rintro ⟨node, -, rfl, hlt, hneighbor⟩
    exact ⟨hlt, hneighbor⟩
  · rintro ⟨hlt, neighbor, hneighbor, hindex⟩
    refine ⟨i, ?_, rfl, hlt, neighbor, hneighbor, hindex⟩
    by_contra hlarge
    unfold nodeNeighbors at hneighbor
    rw [List.getElem?_eq_none (by omega)] at hneighbor
    cases hneighbor

theorem nodup_neighborPairs (hready : HeatReady ready) (hjoined : Dogmos.Joined ok topology)
    (hok : ok.Functional) (i : Nat) :
    (neighborPairs ready i (nodeNeighbors topology ready i)).Nodup := by
  unfold nodeNeighbors
  rcases ready.nodes[i]? with _ | node
  · exact List.nodup_nil
  · unfold neighborPairs
    rw [List.nodup_iff_pairwise_ne, List.pairwise_filterMap]
    have hrow := (hjoined.packed.tidy true node.handle.slot.toNat).ascending
    refine List.Pairwise.imp_of_mem (fun {a b} ha hb hlt => ?_) hrow
    rintro pair hpair pair' hpair' rfl
    -- the two neighbours would be in one slot
    obtain ⟨j, hj, hfirst⟩ := Option.bind_eq_some_iff.1 hpair
    obtain ⟨j', hj', hsecond⟩ := Option.bind_eq_some_iff.1 hpair'
    split at hfirst
    · split at hsecond
      · cases hfirst
        cases hsecond
        rw [hready.indexed] at hj hj'
        have hslot : a.handle.slot = b.handle.slot := Option.some.inj (hj.symm.trans hj')
        have hsame : a = b := hjoined.eq_of_slot hok ha hb hslot
        rw [hsame] at hlt
        exact absurd hlt (lt_irrefl _)
      · cases hsecond
    · cases hfirst

/-- No two captured turfs have more than one edge. -/
theorem Walked.nodup_edges (hready : HeatReady ready) (h : Walked topology ready state)
    (hjoined : Dogmos.Joined ok topology) (hok : ok.Functional) :
    (state.edges.map HeatEdge.pair).Nodup := by
  rw [h.pairs]
  have hrows : ((List.range (state.nextTopologyNode + 1)).flatMap fun i =>
      neighborPairs ready i (nodeNeighbors topology ready i)).Nodup := by
    rw [List.nodup_flatMap]
    refine ⟨fun i _ => nodup_neighborPairs hready hjoined hok i, ?_⟩
    refine List.Pairwise.imp (fun {i j} hlt => ?_) List.pairwise_lt_range
    rw [Function.onFun, List.disjoint_left]
    intro pair hfirst hsecond
    rw [mem_neighborPairs] at hfirst hsecond
    have hsame := hfirst.1.symm.trans hsecond.1
    omega
  rw [List.range_succ, List.flatMap_append] at hrows
  refine hrows.sublist (List.Sublist.append_left ?_ _)
  unfold neighborPairs
  simpa using (List.take_sublist _ _).filterMap _

end Edges

end Dogmos
