import Dogmos.Core.Record
import Dogmos.Legacy.Arena

/-!
# Diffusion between turfs of the legacy backend

One step of the finite differences over the turf graph: each turf compares itself with its
neighbours, those that differ enough add up what an eighth of every neighbour is, and only then all
of them give up an eighth for each neighbour and take what they added up.

Every lock is taken here, so nothing is skipped because another thread holds a mixture.  Turfs are
stepped in the order of the map; the code steps them in parallel, each of them writing to its own
mixture.

Of the library's graph this assumes that the neighbours of a node are its edges from the newest to
the oldest.  What is proved of the step holds for the edges in any order.
-/

namespace Dogmos

namespace Legacy

variable {F D : Type}

section Constants

variable [FloatFormat F]

/-- `R_IDEAL_GAS_EQUATION`. -/
def rIdealGasEquation : F := 8.31

/-- `ONE_ATMOSPHERE`. -/
def oneAtmosphere : F := 101.325

/-- `CELL_VOLUME`. -/
def cellVolume : F := 2500.0

/-- `MOLES_CELLSTANDARD`. -/
def molesCellstandard : F := oneAtmosphere * cellVolume / (t20c * rIdealGasEquation)

/-- `MINIMUM_AIR_RATIO_TO_MOVE`. -/
def minimumAirRatioToMove : F := 0.001

/-- `MINIMUM_MOLES_DELTA_TO_MOVE`. -/
def minimumMolesDeltaToMove : F := molesCellstandard * minimumAirRatioToMove

/-- `MINIMUM_TEMPERATURE_DELTA_TO_SUSPEND`. -/
def minimumTemperatureDeltaToSuspend : F := 4.0

end Constants

/-! ## Comparisons -/

namespace Mixture

variable [FloatFormat F]

/-- `return_pressure`. -/
def returnPressure (m : Mixture F) : F :=
  if m.volume ≤ 0.0 then 0.0 else m.totalMoles * rIdealGasEquation * m.temperature / m.volume

/-- `temperature_compare`. -/
def temperatureCompare (m sample : Mixture F) : Bool :=
  decide (minimumTemperatureDeltaToSuspend < fabs (m.temperature - sample.temperature)) &&
    decide (minimumMolesDeltaToMove < m.totalMoles)

/-- `compare_with`. -/
def compareWith (m sample : Mixture F) (amt : F) : Bool :=
  (List.range (max m.moles.length sample.moles.length)).any fun i =>
    match m.moles[i]?, sample.moles[i]? with
    | some a, none => decide (amt ≤ a)
    | none, some b => decide (amt ≤ b)
    | some a, some b => decide (amt ≤ fabs (a - b))
    | none, none => false

end Mixture

/-! ## The turf graph -/

/-- `TurfGases::get`. -/
def TurfGases.get (t : TurfGases) (node : Nat) : Option TurfMixture := t.graph[node]?.join

/-- `TurfGases::get_from_id`. -/
def TurfGases.getFromId (t : TurfGases) (id : TurfId) : Option TurfMixture :=
  (t.nodeOf id).bind t.get

/-- `TurfGases`, with the edges of its graph: from and to, the newest edge first, which is the
order the neighbours of a node are listed in. -/
structure TurfGraph where
  turfs : TurfGases
  edges : List (Nat × Nat)

namespace TurfGraph

/-- `StableDiGraph::neighbors`. -/
def neighbors (g : TurfGraph) (node : Nat) : List Nat :=
  (g.edges.filter fun edge => edge.1 = node).map Prod.snd

/-- `StableDiGraph::neighbors_directed`, for `Direction::Incoming`. -/
def incoming (g : TurfGraph) (node : Nat) : List Nat :=
  (g.edges.filter fun edge => edge.2 = node).map Prod.fst

/-- `adjacent_mixes`. -/
def adjacentMixes (g : TurfGraph) (node : Nat) (allMixtures : List (Mixture F)) :
    List (Mixture F) :=
  ((g.neighbors node).filterMap g.turfs.get).filterMap fun turf => allMixtures[turf.mix]?

end TurfGraph

/-! ## One turf -/

/-- What `process_cell` saves for a turf. -/
structure Cell (F : Type) where
  endGas : Mixture F
  pressureDiffs : List (TurfId × UInt32 × F)
  adjAmount : Nat

section Steps

variable [FloatFormat F] [FloatFormat D] [FloatCast F D]

/-- `should_process`. -/
def shouldProcess (g : TurfGraph) (allMixtures : List (Mixture F)) (node : Nat)
    (mixture : TurfMixture) : Bool :=
  mixture.enabled && !(g.neighbors node).isEmpty &&
    match allMixtures[mixture.mix]? with
    | none => false
    | some gas => (g.adjacentMixes node allMixtures).any fun mix =>
        gas.temperatureCompare mix || gas.compareWith mix minimumMolesDeltaToMove

/-- What `process_cell` starts with. -/
def Cell.new : Cell F := { endGas := .fromVol cellVolume, pressureDiffs := [], adjAmount := 0 }

/-- The loop of `process_cell` over one neighbour. -/
def Cell.push (table : GasTable F) (g : TurfGraph) (cell : Cell F)
    (adjacent : TurfId × Mixture F) : Option (Cell F) := do
  let (loc, mix) := adjacent
  let turf ← g.turfs.getFromId loc
  pure
    { endGas := (cell.endGas.merge mix table).1
      pressureDiffs := cell.pressureDiffs ++
        [(loc, turf.generation, -mix.returnPressure * gasDiffusionConstant)]
      adjAmount := cell.adjAmount + 1 }

/-- The turfs of the map with their nodes; a node of the map is not vacant. -/
def TurfGraph.mapped (g : TurfGraph) : List (Nat × TurfMixture) :=
  g.turfs.map.filterMap fun (_, node) => (g.turfs.get node).map fun turf => (node, turf)

/-- The turfs that pass the filter. -/
def processed (g : TurfGraph) (allMixtures : List (Mixture F)) : List (Nat × TurfMixture) :=
  g.mapped.filter fun (node, turf) => shouldProcess g allMixtures node turf

end Steps

end Legacy

end Dogmos
