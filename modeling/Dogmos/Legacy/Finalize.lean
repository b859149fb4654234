import Dogmos.Legacy.Zones

/-!
# The flows of a zone applied

Once the movements of a zone are known, every turf in turn sends what it owes to its neighbours.
A turf that does not hold enough first has those neighbours send that owe it something, and so on.
A turf that sends takes all its movements off its edges first, and keeps them in a list of its own.

The mixtures of two turfs are locked and written to together.
-/

namespace Dogmos

namespace Legacy

variable {F D : Type}

/-- `PressureDifference`: an amount, and the two turfs with their generations. -/
structure PressureDifference (F : Type) where
  amount : F
  turf : TurfId
  generation : UInt32
  adjTurf : TurfId
  adjGeneration : UInt32

/-- What applying the flows of a zone writes to. -/
structure Flows (F : Type) where
  graph : ZoneGraph F
  mixtures : List (Mixture F)
  pressures : List (PressureDifference F)

variable [FloatFormat F] [FloatFormat D] [FloatCast F D]

/-- The edges of a node with their weights, as `finalize_eq` reads them. -/
def ZoneGraph.pairs (graph : ZoneGraph F) (index : Nat) : List (Nat × F) :=
  (graph.neighbors index).map fun target => (target, graph.weight index target)

local instance lawfulBEq_edge : LawfulBEq (Nat × Nat) := inferInstance

/-- The graph after the weights of a node's edges are replaced. -/
def ZoneGraph.consumed (graph : ZoneGraph F) (index : Nat) : ZoneGraph F :=
  { graph with weight := fun x y =>
      if x = index ∧ (x, y) ∈ graph.edges then 0.0 else graph.weight x y }

/-- `with_gas_mixtures_mut_in`, as `finalize_eq` uses it: an amount of one mixture is removed and
merged into another one.  Nothing is done if there is no such mixture. -/
def moveBetween (table : GasTable F) (mixtures : List (Mixture F)) (src arg : Nat) (amount : F) :
    List (Mixture F) :=
  match mixtures[src]?, mixtures[arg]? with
  | some air, some otherAir =>
    let (air, removed) := air.remove amount
    (mixtures.set src air).set arg (otherAir.merge removed table).1
  | _, _ => mixtures

/-- The mixtures after an amount moved from one turf to another. -/
def moveAlong (table : GasTable F) (turf adjMix : TurfMixture) (amount : F)
    (mixtures : List (Mixture F)) : List (Mixture F) :=
  if turf.mix ≠ adjMix.mix then moveBetween table mixtures turf.mix adjMix.mix amount
  else mixtures

/-- What is reported of an amount that moved from one turf to another. -/
def PressureDifference.along (turf adjMix : TurfMixture) (amount : F) : PressureDifference F :=
  { amount
    turf := turf.id
    generation := turf.generation
    adjTurf := adjMix.id
    adjGeneration := adjMix.generation }

/-- `finalize_eq_neighbors`, with the call of `finalize_eq` it makes. -/
def finalizeEqNeighbors (finalizeEq : Nat → Flows F → Option (Flows F)) (pairs : List (Nat × F))
    (flows : Flows F) : Option (Flows F) :=
  (pairs.filter fun pair => pair.2 < 0.0).foldlM (fun flows pair => finalizeEq pair.1 flows) flows

/-- The end of the loop of `finalize_eq`: the edge back is set to zero, and the amount is moved and
reported. -/
def sendPair (table : GasTable F) (index target : Nat) (turf adjMix : TurfMixture) (amount : F)
    (flows : Flows F) : Flows F :=
  { graph := match flows.graph.edgeWeight target index with
      | some _ => flows.graph.setWeight target index 0.0
      | none => flows.graph
    mixtures := moveAlong table turf adjMix amount flows.mixtures
    pressures := flows.pressures ++ [.along turf adjMix amount] }

/-- The loop of `finalize_eq` over one of the pairs it consumed. -/
def finalizePair (table : GasTable F) (arena : TurfGraph)
    (finalizeEq : Nat → Flows F → Option (Flows F)) (index : Nat) (turf : TurfMixture)
    (pairs : List (Nat × F)) (flows : Flows F) (pair : Nat × F) : Option (Flows F) :=
  let (target, amount) := pair
  if 0.0 < amount then
    match arena.turfs.get target with
    | none => some flows
    | some adjMix =>
      let called := if turf.totalMolesIn flows.mixtures < amount then
          finalizeEqNeighbors finalizeEq pairs flows
        else some flows
      called.map (sendPair table index target turf adjMix amount)
  else some flows

/-- `finalize_eq`; nothing is left of the fuel, or a turf is missing, where it returns `none`. -/
def finalizeEq (table : GasTable F) (arena : TurfGraph) :
    Nat → Nat → Flows F → Option (Flows F)
  | 0, _, _ => none
  | fuel + 1, index, flows =>
    let pairs := flows.graph.pairs index
    match arena.turfs.get index with
    | none => none
    | some turf => pairs.foldlM
        (finalizePair table arena (finalizeEq table arena fuel) index turf pairs)
        { flows with graph := flows.graph.consumed index }

/-- The loop of `finalize_eq_zone`. -/
def finalizeNodes (table : GasTable F) (arena : TurfGraph) (fuel : Nat) (nodes : List Nat)
    (flows : Flows F) : Option (Flows F) :=
  nodes.foldlM (fun flows index => finalizeEq table arena fuel index flows) flows

/-- `finalize_eq_zone`: the mixtures after it, and the pressure differences if there are any. -/
def finalizeEqZone (table : GasTable F) (arena : TurfGraph) (fuel : Nat)
    (allMixtures : List (Mixture F)) (graph : ZoneGraph F) :
    Option (List (Mixture F) × Option (List (PressureDifference F))) :=
  (finalizeNodes table arena fuel graph.nodes
    { graph, mixtures := allMixtures, pressures := [] }).map fun flows =>
      (flows.mixtures, if flows.pressures.isEmpty then none else some flows.pressures)

end Legacy

end Dogmos
