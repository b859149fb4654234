import Dogmos.Core.Handles
import Mathlib.Data.List.Sort

/-!
# Graph validation

`validateGraph` checks a list of nodes and directed edges and builds the
compressed adjacency of an accepted graph: the neighbours of node `i` are the
entries of `neighbors` between `offsets[i]` and `offsets[i + 1]`.
-/

namespace Dogmos

/-- `GraphNode`; a node handle is a slot number. -/
structure GraphNode where
  handle : UInt32
  generation : UInt32
  mixture : Option MixtureHandle
deriving DecidableEq

/-- `DirectedEdge`. -/
structure DirectedEdge where
  source : UInt32
  target : UInt32
deriving DecidableEq

/-- `GraphValidationError`. -/
inductive GraphValidationError
  | duplicateNode (handle : UInt32)
  | missingMixture (handle : UInt32)
  | unknownNode (handle : UInt32)
  | selfEdge (handle : UInt32)
  | duplicateEdge (source target : UInt32)
  | missingReciprocalEdge (source target : UInt32)
  | degreeExceeded (handle : UInt32) (degree : Nat)
  | handleSpaceExceeded
deriving DecidableEq

/-- The message of a graph validation error. -/
def GraphValidationError.display : GraphValidationError → String
  | .duplicateNode handle => "duplicate graph node " ++ toString handle.toNat
  | .missingMixture handle => "graph node " ++ toString handle.toNat ++ " has no mixture"
  | .unknownNode handle => "unknown graph node " ++ toString handle.toNat
  | .selfEdge handle => "graph node " ++ toString handle.toNat ++ " has a self-edge"
  | .duplicateEdge source target =>
    "duplicate graph edge " ++ toString source.toNat ++ " -> " ++ toString target.toNat
  | .missingReciprocalEdge source target =>
    "graph edge " ++ toString source.toNat ++ " -> " ++ toString target.toNat ++
      " is not reciprocal"
  | .degreeExceeded handle degree =>
    "graph node " ++ toString handle.toNat ++ " has degree " ++ toString degree ++
      ", above the supported maximum 6"
  | .handleSpaceExceeded => "graph exceeds the u32 handle space"

/-- `DiffusionGraph`. -/
structure DiffusionGraph where
  nodes : List GraphNode
  handleToIndex : Std.TreeMap UInt32 Nat
  offsets : List Nat
  neighbors : List Nat

/-- `MAX_CARDINAL_NEIGHBORS`. -/
def maxCardinalNeighbors : Nat := 6

/-- The loop of `validate_graph` over the nodes. -/
def indexNodes : List GraphNode → Nat → Std.TreeMap UInt32 Nat →
    Except GraphValidationError (Std.TreeMap UInt32 Nat)
  | [], _, handleToIndex => pure handleToIndex
  | node :: rest, index, handleToIndex =>
    if node.mixture.isNone then throw (.missingMixture node.handle)
    else if 2 ^ 32 ≤ index then throw .handleSpaceExceeded
    else if handleToIndex.contains node.handle then throw (.duplicateNode node.handle)
    else indexNodes rest (index + 1) (handleToIndex.insert node.handle index)

/-- The loop of `validate_graph` over the edges. -/
def checkEdges (handleToIndex : Std.TreeMap UInt32 Nat) : List DirectedEdge → List DirectedEdge →
    Except GraphValidationError Unit
  | [], _ => pure ()
  | edge :: rest, seen =>
    if !handleToIndex.contains edge.source then throw (.unknownNode edge.source)
    else if !handleToIndex.contains edge.target then throw (.unknownNode edge.target)
    else if edge.source = edge.target then throw (.selfEdge edge.source)
    else if edge ∈ seen then throw (.duplicateEdge edge.source edge.target)
    else checkEdges handleToIndex rest (edge :: seen)

/-- The edges in the order of the edge set. -/
def sortedEdges (edges : List DirectedEdge) : List DirectedEdge :=
  edges.insertionSort fun a b =>
    a.source < b.source ∨ a.source = b.source ∧ a.target ≤ b.target

/-- The counting pass of `validate_graph`: the degree of each node, and the indices of the ends of
each edge. -/
def resolveEdges (handleToIndex : Std.TreeMap UInt32 Nat) (edgeSet : List DirectedEdge) :
    List DirectedEdge → List Nat → List (Nat × Nat) →
      Except GraphValidationError (List Nat × List (Nat × Nat))
  | [], degrees, resolved => pure (degrees, resolved)
  | edge :: rest, degrees, resolved =>
    if ⟨edge.target, edge.source⟩ ∉ edgeSet then
      throw (.missingReciprocalEdge edge.source edge.target)
    else
      let source := handleToIndex[edge.source]?.getD 0
      let target := handleToIndex[edge.target]?.getD 0
      resolveEdges handleToIndex edgeSet rest (degrees.modify source (· + 1))
        (resolved ++ [(source, target)])

/-- The prefix sums of `validate_graph`: the offsets of the rows and the number of edges. -/
def edgeOffsets : List Nat → Nat → List Nat → Except GraphValidationError (List Nat × Nat)
  | [], edgeCount, offsets => pure (offsets, edgeCount)
  | degree :: rest, edgeCount, offsets =>
    if 2 ^ 32 ≤ edgeCount + degree then throw .handleSpaceExceeded
    else edgeOffsets rest (edgeCount + degree) (offsets ++ [edgeCount + degree])

/-- The loop of `validate_graph` that puts each edge behind those of its row. -/
def placeNeighbors (offsets : List Nat) : List (Nat × Nat) → List Nat → List Nat → List Nat
  | [], _, neighbors => neighbors
  | (source, target) :: rest, cursors, neighbors =>
    let slot := offsets.getD source 0 + cursors.getD source 0
    placeNeighbors offsets rest (cursors.modify source (· + 1)) (neighbors.set slot target)

/-- One row sorted in place. -/
def sortRow (offsets neighbors : List Nat) (index : Nat) : List Nat :=
  let start := offsets.getD index 0
  let stop := offsets.getD (index + 1) 0
  neighbors.take start ++
    ((neighbors.drop start).take (stop - start)).insertionSort (· ≤ ·) ++ neighbors.drop stop

/-- `validate_graph`. -/
def validateGraph (nodes : List GraphNode) (edges : List DirectedEdge) :
    Except GraphValidationError DiffusionGraph := do
  let handleToIndex ← indexNodes nodes 0 ∅
  checkEdges handleToIndex edges []
  let edgeSet := sortedEdges edges
  let (degrees, resolved) ←
    resolveEdges handleToIndex edgeSet edgeSet (List.replicate nodes.length 0) []
  match (nodes.zip degrees).find? fun (_, degree) => maxCardinalNeighbors < degree with
  | some (node, degree) => throw (.degreeExceeded node.handle degree)
  | none => pure ()
  let (offsets, edgeCount) ← edgeOffsets degrees 0 [0]
  let neighbors := placeNeighbors offsets resolved (List.replicate nodes.length 0)
    (List.replicate edgeCount 0)
  pure
    { nodes, handleToIndex, offsets
      neighbors := (List.range nodes.length).foldl (sortRow offsets) neighbors }

/-- `DiffusionGraph::node_count`. -/
def DiffusionGraph.nodeCount (graph : DiffusionGraph) : Nat := graph.nodes.length

/-- `DiffusionGraph::neighbor_indices`. -/
def DiffusionGraph.neighborIndices (graph : DiffusionGraph) (index : Nat) : List Nat :=
  let start := graph.offsets.getD index 0
  let stop := graph.offsets.getD (index + 1) 0
  (graph.neighbors.drop start).take (stop - start)

end Dogmos
