import Dogmos.Legacy.Diffusion

/-!
# Zones of the legacy equalizer

A zone is a part of the turf graph that is to be brought to one average.  A flood fill collects it
into a graph of its own, whose edges hold how much is to be moved along them.  What every turf has
over the average is then routed along the edges: first turf by turf to the neighbours, if the zone
has enough of both kinds, and then by a search from each turf that gives, or from each that takes.

The callbacks that the flood fill queues are left out, and the clock is a list of answers: whether
the time is over at each turf that is visited.

Of the library's graph map this assumes that nodes and neighbours come in the order in which they
were added, that an edge added again keeps its place, and that it takes the new weight.
-/

namespace Dogmos

namespace Legacy

variable {F : Type}

/-! ## The graph of a zone -/

/-- `DiGraphMap<NodeIndex, Cell<f32>>`: the nodes and the edges in the order they were added, and
the weights of the edges. -/
structure ZoneGraph (F : Type) where
  nodes : List Nat
  edges : List (Nat × Nat)
  weight : Nat → Nat → F

namespace ZoneGraph

/-- `neighbors`. -/
def neighbors (graph : ZoneGraph F) (node : Nat) : List Nat :=
  (graph.edges.filter fun edge => edge.1 = node).map Prod.snd

/-- `edge_weight`. -/
def edgeWeight (graph : ZoneGraph F) (a b : Nat) : Option F :=
  if (a, b) ∈ graph.edges then some (graph.weight a b) else none

/-- `Cell::set`, for the weight of an edge. -/
def setWeight (graph : ZoneGraph F) (a b : Nat) (weight : F) : ZoneGraph F :=
  { graph with weight := fun x y => if x = a ∧ y = b then weight else graph.weight x y }

/-- `add_node`. -/
def addNode (graph : ZoneGraph F) (node : Nat) : ZoneGraph F :=
  if node ∈ graph.nodes then graph else { graph with nodes := graph.nodes ++ [node] }

/-- `add_edge`: an edge that exists gets the new weight. -/
def addEdge (graph : ZoneGraph F) (a b : Nat) (weight : F) : ZoneGraph F :=
  let graph := (graph.addNode a).addNode b
  let graph := if (a, b) ∈ graph.edges then graph
    else { graph with edges := graph.edges ++ [(a, b)] }
  graph.setWeight a b weight

end ZoneGraph

/-! ## What is kept of each turf -/

/-- `MonstermosInfo`. -/
structure MonstermosInfo (F : Type) where
  moleDelta : F
  currTransferAmount : F
  currTransferDir : Option Nat
  fastDone : Bool

/-- The map from nodes to `MonstermosInfo`. -/
abbrev InfoMap (F : Type) := Nat → Option (MonstermosInfo F)

/-- The map with the entry of a node written, if it has one. -/
def InfoMap.modify (info : InfoMap F) (node : Nat) (written : MonstermosInfo F) : InfoMap F :=
  fun other => if other = node then (info node).map fun _ => written else info other

variable [FloatFormat F]

/-- `adjust_eq_movement`. -/
def adjustEqMovement (thisTurf thatTurf : Nat) (amount : F) (graph : ZoneGraph F) :
    ZoneGraph F :=
  let graph := match graph.edgeWeight thisTurf thatTurf with
    | some cell => graph.setWeight thisTurf thatTurf (cell + amount)
    | none => graph
  match graph.edgeWeight thatTurf thisTurf with
  | some cell => graph.setWeight thatTurf thisTurf (cell - amount)
  | none => graph

/-! ## The fast pass -/

/-- What tells `give_to_takers` and `take_from_givers` apart: when the root of a search is served,
which turfs can serve it, and whether such a turf is more than enough. -/
structure Side (F : Type) where
  served : F → Bool
  serves : F → Bool
  exceeds : F → F → Bool

/-- A search from one root: its queue, and the infos with the root's own copy of its info. -/
structure Search (F : Type) where
  queue : List Nat
  info : InfoMap F
  root : MonstermosInfo F

/-- A turf that a search finds serves its root. -/
def meet (side : Side F) (adjInfo root : MonstermosInfo F) :
    MonstermosInfo F × MonstermosInfo F :=
  if side.serves adjInfo.moleDelta then
    if side.exceeds adjInfo.moleDelta root.moleDelta then
      ({ adjInfo with
          currTransferAmount := adjInfo.currTransferAmount - root.moleDelta
          moleDelta := adjInfo.moleDelta + root.moleDelta },
        { root with moleDelta := 0.0 })
    else
      ({ adjInfo with
          currTransferAmount := adjInfo.currTransferAmount + adjInfo.moleDelta
          moleDelta := 0.0 },
        { root with moleDelta := root.moleDelta + adjInfo.moleDelta })
  else (adjInfo, root)

/-- A search looks at one neighbour, unless its root is served. -/
def Search.visit (side : Side F) (index curIndex : Nat) (search : Search F) (adjIndex : Nat) :
    Search F :=
  if side.served search.root.moleDelta then search
  else
    let next := match search.info adjIndex with
      | none => search
      | some adjInfo =>
        if adjIndex ∈ search.queue then search
        else
          let met := meet side
            { adjInfo with currTransferDir := some curIndex, currTransferAmount := 0.0 }
            search.root
          { queue := search.queue ++ [adjIndex]
            info := search.info.modify adjIndex met.1
            root := met.2 }
    { next with info := next.info.modify index next.root }

/-- The loop of a search over its queue, from some place on.  The queue holds no turf twice, so
the number of turfs is enough fuel. -/
def Search.run (side : Side F) (graph : ZoneGraph F) (index : Nat) :
    Nat → Nat → Search F → Search F
  | 0, _, search => search
  | fuel + 1, queueIdx, search =>
    match search.queue[queueIdx]? with
    | none => search
    | some curIndex =>
      if side.served search.root.moleDelta then search
      else Search.run side graph index fuel (queueIdx + 1)
        ((graph.neighbors curIndex).foldl (Search.visit side index curIndex) search)

/-- The second loop of a search, over the queue from its end: what a turf transfers is moved one
turf closer to the root. -/
def drainTurf (state : InfoMap F × ZoneGraph F) (curIndex : Nat) : InfoMap F × ZoneGraph F :=
  let (info, graph) := state
  match info curIndex with
  | none => state
  | some turfInfo =>
    if turfInfo.currTransferAmount == 0.0 then state
    else
      match turfInfo.currTransferDir with
      | none => state
      | some transferDir =>
        match info transferDir with
        | none => state
        | some adjInfo =>
          let moved := info.modify transferDir
            { adjInfo with
              currTransferAmount := adjInfo.currTransferAmount + turfInfo.currTransferAmount }
          (moved.modify curIndex { turfInfo with currTransferAmount := 0.0 },
            adjustEqMovement curIndex transferDir turfInfo.currTransferAmount graph)

/-- The body of `give_to_takers` and `take_from_givers` for one root. -/
def routeFrom (side : Side F) (state : InfoMap F × ZoneGraph F) (index : Nat) :
    InfoMap F × ZoneGraph F :=
  let (info, graph) := state
  match info index with
  | none => state
  | some found =>
    let root := { found with currTransferDir := none, currTransferAmount := 0.0 }
    let search := Search.run side graph index graph.nodes.length 0
      { queue := [index], info := info.modify index root, root }
    search.queue.reverse.foldl drainTurf (search.info, graph)

/-- `total_moles_in`; the mixtures of the turfs are in the arena. -/
def TurfMixture.totalMolesIn (turf : TurfMixture) (allMixtures : List (Mixture F)) : F :=
  match allMixtures[turf.mix]? with
  | some mix => mix.totalMoles
  | none => 0.0

/-- `is_immutable_in`. -/
def TurfMixture.isImmutableIn (turf : TurfMixture) (allMixtures : List (Mixture F)) : Bool :=
  match allMixtures[turf.mix]? with
  | some mix => mix.immutable
  | none => false

/-- The amount the turf at a node holds. -/
def molesAt (arena : TurfGraph) (allMixtures : List (Mixture F)) (node : Nat) : F :=
  match arena.turfs.get node with
  | some turf => turf.totalMolesIn allMixtures
  | none => 0.0

/-- The infos `process_zone` starts with. -/
def initialInfo (graph : ZoneGraph F) (averageMoles : F) (arena : TurfGraph)
    (allMixtures : List (Mixture F)) : InfoMap F := fun node =>
  if node ∈ graph.nodes then
    some
      { moleDelta := molesAt arena allMixtures node - averageMoles
        currTransferAmount := 0.0
        currTransferDir := none
        fastDone := false }
  else none

/-- `FloodFillResult`. -/
inductive FloodFillResult (F : Type)
  | zoneIgnored
  | overtime
  | complete (zone : ZoneGraph F) (totalMoles : F)

/-- The state of a flood fill. -/
structure Fill (F : Type) where
  turfGraph : ZoneGraph F
  borderTurfs : List Nat
  foundTurfs : List TurfId
  totalMoles : F
  isPlanet : Bool
  ignoreZone : Bool

/-- The loop of `flood_fill_zones` over one edge. -/
def Fill.reach (arena : TurfGraph) (allMixtures : List (Mixture F)) (curIndex : Nat)
    (fill : Fill F) (adjIndex : Nat) : Fill F :=
  match arena.turfs.get adjIndex with
  | none => fill
  | some adjMixture =>
    let fill := if adjMixture.enabled then
        { fill with turfGraph := fill.turfGraph.addEdge curIndex adjIndex 0.0 }
      else fill
    if adjMixture.id ∈ fill.foundTurfs then fill
    else
      { fill with
        foundTurfs := fill.foundTurfs ++ [adjMixture.id]
        borderTurfs := if adjMixture.enabled then fill.borderTurfs ++ [adjIndex]
          else fill.borderTurfs
        ignoreZone := fill.ignoreZone || adjMixture.isImmutableIn allMixtures }

/-- What `flood_fill_zones` returns when its loop ends. -/
def Fill.result (fill : Fill F) : FloodFillResult F :=
  if fill.ignoreZone then .zoneIgnored else .complete fill.turfGraph fill.totalMoles

/-- The loop of `flood_fill_zones`: what it returns, and the turfs found after it.  It panics at a
vacant node. -/
def Fill.run (equalizeHardTurfLimit : Nat) (arena : TurfGraph) (allMixtures : List (Mixture F))
    (overtime : Nat → Bool) : Nat → Fill F → Option (FloodFillResult F × List TurfId)
  | 0, _ => none
  | fuel + 1, fill =>
    match fill.borderTurfs with
    | [] => some (fill.result, fill.foundTurfs)
    | curIndex :: rest =>
      match arena.turfs.get curIndex with
      | none => none
      | some curTurf =>
        let fill := { fill with
          borderTurfs := rest
          isPlanet := fill.isPlanet || curTurf.planetaryAtmos.isSome }
        if fill.isPlanet ∧ equalizeHardTurfLimit < fill.turfGraph.nodes.length then
          some (fill.result, fill.foundTurfs)
        else if overtime fuel then some (.overtime, fill.foundTurfs)
        else Fill.run equalizeHardTurfLimit arena allMixtures overtime fuel
          ((arena.neighbors curIndex).foldl (Fill.reach arena allMixtures curIndex)
            { fill with totalMoles := fill.totalMoles + curTurf.totalMolesIn allMixtures })

end Legacy

end Dogmos
