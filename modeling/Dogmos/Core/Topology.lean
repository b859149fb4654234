import Dogmos.Lib.Exec
import Dogmos.Core.SlotIndex

/-!
# The packed turf topology

Every turf slot has two fixed rows of at most six neighbours, one for gas and
one for heat.  A row keeps its occupied entries in front, sorted by handle.
Edges are stored at both ends, and the two counters hold the number of
undirected edges.
-/

namespace Dogmos

/-- `MAX_TURF_NEIGHBORS`. -/
def maxTurfNeighbors : Nat := 6

/-- `TopologyNeighbor`. -/
structure TopologyNeighbor where
  handle : TurfHandle
  firelock : Bool
deriving DecidableEq

/-- `TopologyError`. -/
inductive TopologyError
  | selfEdge (handle : TurfHandle)
  | degreeExceeded (handle : TurfHandle)
  | missingGasEdge
deriving DecidableEq

/-- The `Debug` text of a handle. -/
def TurfHandle.debug (handle : TurfHandle) : String :=
  "TurfHandle \x7b slot: " ++ toString handle.slot.toNat ++ ", generation: " ++
    toString handle.generation.toNat ++ " \x7d"

/-- The `Debug` text of a topology error. -/
def TopologyError.debug : TopologyError → String
  | .selfEdge handle => "SelfEdge(" ++ handle.debug ++ ")"
  | .degreeExceeded handle => "DegreeExceeded(" ++ handle.debug ++ ")"
  | .missingGasEdge => "MissingGasEdge"

/-- A row of neighbours: `[Option<TopologyNeighbor>; MAX_TURF_NEIGHBORS]`. -/
abbrev Row := List (Option TopologyNeighbor)

/-- The row without neighbours. -/
def emptyRow : Row := List.replicate maxTurfNeighbors none

/-- The occupied entries of a row, in order. -/
def Row.occupied (row : Row) : List TopologyNeighbor := row.filterMap id

/-- `insert_sorted`. -/
def insertSorted (row : Row) (neighbor : TopologyNeighbor) : Row :=
  let count := (row.takeWhile Option.isSome).length
  let index := ((row.take count).takeWhile fun entry =>
    entry.any fun occupied => occupied.handle < neighbor.handle).length
  row.take index ++ some neighbor :: (row.drop index).take (count - index) ++ row.drop (count + 1)

/-- The entry at an index taken out and the later ones moved up. -/
def removeAt (row : Row) (index : Nat) : Row := row.eraseIdx index ++ [none]

/-- The first entry that meets a condition taken out, if there is one. -/
def removeFirst (row : Row) (p : TopologyNeighbor → Bool) : Row :=
  match row.findIdx? fun entry => entry.any p with
  | some index => removeAt row index
  | none => row

/-- `remove_neighbor`. -/
def removeNeighbor (row : Row) (handle : TurfHandle) : Row :=
  removeFirst row fun neighbor => neighbor.handle = handle

/-- `remove_neighbor_slot`. -/
def removeNeighborSlot (row : Row) (slot : UInt32) : Row :=
  removeFirst row fun neighbor => neighbor.handle.slot = slot

/-- `TopologySlot`. -/
structure TopologySlot where
  gas : Row
  heat : Row
deriving DecidableEq

/-- `TopologySlot::default`. -/
def TopologySlot.vacant : TopologySlot := { gas := emptyRow, heat := emptyRow }

/-- The row of one kind: heat when the flag is set, gas otherwise. -/
def TopologySlot.row (entry : TopologySlot) (heat : Bool) : Row :=
  if heat then entry.heat else entry.gas

/-- The slot with one of its rows replaced. -/
def TopologySlot.setRow (entry : TopologySlot) (heat : Bool) (row : Row) : TopologySlot :=
  if heat then { entry with heat := row } else { entry with gas := row }

/-- `PackedTopology`. -/
structure PackedTopology where
  slots : List TopologySlot
  revision : UInt64
  gasEdges : Nat
  heatEdges : Nat
deriving DecidableEq

namespace PackedTopology

/-- `PackedTopology::default`. -/
def empty : PackedTopology := { slots := [], revision := 0, gasEdges := 0, heatEdges := 0 }

/-- The neighbours of a slot in one kind of row, in order. -/
def neighbors (topology : PackedTopology) (heat : Bool) (slot : Nat) : List TopologyNeighbor :=
  (topology.slots[slot]?.map fun entry => (entry.row heat).occupied).getD []

/-- `PackedTopology::gas_neighbors`. -/
def gasNeighbors (topology : PackedTopology) (handle : TurfHandle) : List TopologyNeighbor :=
  topology.neighbors false handle.slot.toNat

/-- `PackedTopology::heat_neighbors`. -/
def heatNeighbors (topology : PackedTopology) (handle : TurfHandle) : List TopologyNeighbor :=
  topology.neighbors true handle.slot.toNat

/-- `PackedTopology::find_neighbor`. -/
def findNeighbor (topology : PackedTopology) (left right : TurfHandle) (heat : Bool) :
    Option TopologyNeighbor :=
  (topology.neighbors heat left.slot.toNat).find? fun entry => entry.handle = right

/-- `PackedTopology::ensure_slot`. -/
def ensureSlot (topology : PackedTopology) (slot : Nat) : PackedTopology :=
  { topology with slots := growTo topology.slots slot TopologySlot.vacant }

/-- `PackedTopology::neighbors_array`. -/
def neighborsArray (topology : PackedTopology) (handle : TurfHandle) (heat : Bool) : Row :=
  (topology.slots[handle.slot.toNat]?.map fun entry => entry.row heat).getD emptyRow

/-- The write through `PackedTopology::neighbors_array_mut`. -/
def updateRow (topology : PackedTopology) (slot : Nat) (heat : Bool) (f : Row → Row) :
    PackedTopology :=
  { topology with
    slots := topology.slots.modify slot fun entry => entry.setRow heat (f (entry.row heat)) }

/-- The topology with its revision moved on. -/
def revised (topology : PackedTopology) : PackedTopology :=
  { topology with revision := topology.revision + 1 }

/-- The topology with the edge counter of one kind replaced. -/
def countEdges (topology : PackedTopology) (heat : Bool) (f : Nat → Nat) : PackedTopology :=
  if heat then { topology with heatEdges := f topology.heatEdges }
  else { topology with gasEdges := f topology.gasEdges }

/-- `PackedTopology::connect`: whether an edge was added. -/
def connect (left right : TurfHandle) (heat : Bool) : Exec TopologyError PackedTopology Bool := do
  if left.slot = right.slot then
    throw (.selfEdge left)
  -- the table has grown even when one of the checks below fails
  modify fun topology => topology.ensureSlot (max left.slot.toNat right.slot.toNat)
  let topology ← get
  if (topology.findNeighbor left right heat).isSome then
    return false
  if (topology.neighborsArray left heat).all Option.isSome then
    throw (.degreeExceeded left)
  if (topology.neighborsArray right heat).all Option.isSome then
    throw (.degreeExceeded right)
  modify fun topology =>
    ((topology.updateRow left.slot.toNat heat fun row => insertSorted row ⟨right, false⟩).updateRow
      right.slot.toNat heat fun row => insertSorted row ⟨left, false⟩).revised
  return true

/-- `PackedTopology::connect_gas` and `connect_heat`. -/
def connectCounted (left right : TurfHandle) (heat : Bool) :
    Exec TopologyError PackedTopology Bool := do
  let changed ← connect left right heat
  if changed then
    modify fun topology => topology.countEdges heat (· + 1)
  return changed

/-- `PackedTopology::connect_gas`. -/
def connectGas (left right : TurfHandle) : Exec TopologyError PackedTopology Bool :=
  connectCounted left right false

/-- `PackedTopology::connect_heat`. -/
def connectHeat (left right : TurfHandle) : Exec TopologyError PackedTopology Bool :=
  connectCounted left right true

/-- `PackedTopology::disconnect`, with the counter `disconnect_gas` and `disconnect_heat`
lower. -/
def disconnectCounted (topology : PackedTopology) (left right : TurfHandle) (heat : Bool) :
    PackedTopology :=
  if (topology.findNeighbor left right heat).isSome then
    (((topology.updateRow left.slot.toNat heat fun row => removeNeighbor row right).updateRow
      right.slot.toNat heat fun row => removeNeighbor row left).revised).countEdges heat (· - 1)
  else topology

/-- `PackedTopology::disconnect_gas`. -/
def disconnectGas (topology : PackedTopology) (left right : TurfHandle) : PackedTopology :=
  topology.disconnectCounted left right false

/-- `PackedTopology::disconnect_heat`. -/
def disconnectHeat (topology : PackedTopology) (left right : TurfHandle) : PackedTopology :=
  topology.disconnectCounted left right true

/-- The write through `PackedTopology::find_neighbor_mut`. -/
def flagNeighbor (row : Row) (handle : TurfHandle) (firelock : Bool) : Row :=
  match row.findIdx? fun entry => entry.any fun neighbor => neighbor.handle = handle with
  | some index => row.set index (some ⟨handle, firelock⟩)
  | none => row

/-- `PackedTopology::set_firelock`. -/
def setFirelock (topology : PackedTopology) (left right : TurfHandle) (firelock : Bool) :
    Except TopologyError PackedTopology :=
  match topology.findNeighbor left right false with
  | none => throw .missingGasEdge
  | some neighbor =>
    if neighbor.firelock = firelock then pure topology
    else
      pure ((topology.updateRow left.slot.toNat false fun row => flagNeighbor row right firelock).updateRow
        right.slot.toNat false fun row => flagNeighbor row left firelock).revised

/-- The partners of a removed slot forget it in one kind of row. -/
def forgetSlot (topology : PackedTopology) (slot : UInt32) (heat : Bool)
    (partners : List TopologyNeighbor) : PackedTopology :=
  partners.foldl
    (fun topology partner =>
      topology.updateRow partner.handle.slot.toNat heat fun row => removeNeighborSlot row slot)
    topology

/-- `PackedTopology::remove_slot`. -/
def removeSlot (topology : PackedTopology) (slot : UInt32) : PackedTopology :=
  let gas := topology.neighbors false slot.toNat
  let heat := topology.neighbors true slot.toNat
  if gas.length = 0 ∧ heat.length = 0 then topology
  else
    let cleared := { topology with slots := topology.slots.set slot.toNat TopologySlot.vacant }
    let forgotten := (cleared.forgetSlot slot false gas).forgetSlot slot true heat
    (((forgotten.countEdges false (· - gas.length)).countEdges true (· - heat.length))).revised

/-- `PackedTopology::gas_slot_edges` and `heat_slot_edges`: every undirected edge once, from its
lower slot. -/
def slotEdges (topology : PackedTopology) (heat : Bool) : List (Nat × Nat × Bool) :=
  (List.range topology.slots.length).flatMap fun slot =>
    (topology.neighbors heat slot).filterMap fun neighbor =>
      if slot < neighbor.handle.slot.toNat then
        some (slot, neighbor.handle.slot.toNat, neighbor.firelock)
      else none

/-- `PackedTopology::gas_edge_count` and `heat_edge_count`. -/
def edgeCount (topology : PackedTopology) (heat : Bool) : Nat :=
  if heat then topology.heatEdges else topology.gasEdges

end PackedTopology

end Dogmos
