import Dogmos.Lib.BackIndex
import Dogmos.Core.Lifecycle

/-!
# Turf operations of a world

The batches that register and unregister turfs, set their heat, connect them and
set firelocks, and the list of turfs whose heat is active.  `heatActive` and the
index each active turf stores are kept in step by `activateTurfHeat` and
`deactivateTurfHeatSlot`.
-/

namespace Dogmos

variable {F : Type}

/-- A turf with another heat index. -/
def TurfRecord.withIndex (index : Option UInt32) (turf : TurfRecord F) : TurfRecord F :=
  { turf with heatActiveIndex := index }

/-- A turf with the temperature of its heat replaced. -/
def TurfRecord.withTemperature (temperature : F) (turf : TurfRecord F) : TurfRecord F :=
  { turf with heat := turf.heat.map fun heat => { heat with temperature } }

namespace DogmosWorld

/-! ## Edges of one slot -/

/-- Connects a turf to a list of others again; a connection that fails is skipped. -/
def reconnectHeat (topology : PackedTopology) (this : TurfHandle)
    (partners : List TopologyNeighbor) : PackedTopology :=
  partners.foldl (fun topology other => (PackedTopology.connectHeat this other.handle).final topology)
    topology

/-- The flag of an edge set, or the topology as it is when there is no such edge. -/
def keepFirelock (topology : PackedTopology) (this other : TurfHandle) (firelock : Bool) :
    PackedTopology :=
  match topology.setFirelock this other firelock with
  | .ok topology => topology
  | .error _ => topology

/-- Connects a turf to a list of others again, with their firelocks. -/
def reconnectGas (topology : PackedTopology) (this : TurfHandle)
    (partners : List TopologyNeighbor) : PackedTopology :=
  partners.foldl
    (fun topology other =>
      keepFirelock ((PackedTopology.connectGas this other.handle).final topology) this other.handle
        other.firelock)
    topology

/-- `remove_incident_gas_edges`. -/
def removeIncidentGasEdges (w : DogmosWorld F) (slot : UInt32) : DogmosWorld F :=
  match w.currentTurfHandle slot with
  | .ok this =>
    { w with
      topology := reconnectHeat (w.topology.removeSlot slot) this (w.topology.heatNeighbors this) }
  | .error _ => { w with topology := w.topology.removeSlot slot }

/-- `remove_incident_heat_edges`. -/
def removeIncidentHeatEdges (w : DogmosWorld F) (slot : UInt32) : DogmosWorld F :=
  match w.currentTurfHandle slot with
  | .ok this =>
    { w with
      topology := reconnectGas (w.topology.removeSlot slot) this (w.topology.gasNeighbors this) }
  | .error _ => { w with topology := w.topology.removeSlot slot }

/-! ## The active heat list -/

/-- `activate_turf_heat`. -/
def activateTurfHeat (handle : TurfHandle) : WorldM F Unit := do
  let turf ← Exec.check fun w => w.requireTurfHandle handle
  if turf.heatActiveIndex.isNone then
    let w ← get
    if 2 ^ 32 ≤ w.heatActive.length then
      throw (.state "active turf heat count exceeds u32")
    modify fun w =>
      { w with heatActive := w.heatActive ++ [handle] }.writeTurf handle.slot.toNat
        (TurfRecord.withIndex (some (UInt32.ofNat w.heatActive.length)))

/-- `deactivate_turf_heat_slot`. -/
def deactivateTurfHeatSlot (w : DogmosWorld F) (slot : UInt32) : DogmosWorld F :=
  match (w.turfAt slot.toNat).bind TurfRecord.heatActiveIndex with
  | none => w
  | some index =>
    let removed := { w with heatActive := swapRemove w.heatActive index.toNat }
    let moved :=
      match removed.heatActive[index.toNat]? with
      | some moved => removed.writeTurf moved.slot.toNat (TurfRecord.withIndex (some index))
      | none => removed
    moved.writeTurf slot.toNat (TurfRecord.withIndex none)

/-! ## Turf lifecycle -/

/-- The handle and the mixture a turf mutation names. -/
def turfMutationTarget : TurfLifecycleMutation → TurfHandle × Option MixtureHandle
  | .register handle mixture => (handle, mixture)
  | .unregister handle => (handle, none)

/-- The check of `apply_turf_lifecycle` on one mutation. -/
def projectTurfMutation (w : DogmosWorld F) (projected : Projection)
    (mutation : TurfLifecycleMutation) : Except WorldError Projection := do
  let (handle, mixture) := turfMutationTarget mutation
  match mixture with
  | some mixture => let _ ← w.requireHandle mixture
  | none => pure ()
  w.validateTurfSlotCapacity handle.slot
  let current := (projected[handle.slot]?).getD (w.projectedTurfSlot handle.slot)
  match mutation with
  | .register .. =>
    match current.generation with
    | some generation =>
      if handle.generation < generation ∨ ¬current.occupied ∧ handle.generation = generation then
        throw (.staleTurfHandle handle generation)
    | none => pure ()
    pure (projected.insert handle.slot { generation := some handle.generation, occupied := true })
  | .unregister _ =>
    match current.generation with
    | none => throw (.unknownTurfHandle handle)
    | some generation =>
      if handle.generation ≠ generation then
        throw (.staleTurfHandle handle generation)
      if ¬current.occupied then
        throw (.unknownTurfHandle handle)
      pure (projected.insert handle.slot { generation := some generation, occupied := false })

/-- `unlink_turf_mixture`. -/
def unlinkTurfMixture (w : DogmosWorld F) (turfSlot : UInt32) : DogmosWorld F :=
  match (w.turfAt turfSlot.toNat).bind TurfRecord.mixture with
  | some mixture => { w with mixtureTurfs := SetIndex.unlink w.mixtureTurfs mixture turfSlot }
  | none => w

/-- The world with a turf linked from its mixture. -/
def linkTurfMixture (w : DogmosWorld F) (turfSlot : UInt32) (mixture : Option MixtureHandle) :
    DogmosWorld F :=
  match mixture with
  | some mixture =>
    { w with mixtureTurfs := SetIndex.link w.mixtureTurfs mixture turfSlot }
  | none => w

/-- The world with the record of one turf slot replaced. -/
def putTurf (w : DogmosWorld F) (slot : UInt32) (f : TurfSlot F → TurfSlot F) : DogmosWorld F :=
  { w with turfs := w.turfs.modify slot.toNat f }

/-- The generation of a turf slot. -/
def turfGeneration (w : DogmosWorld F) (slot : UInt32) : Option UInt32 :=
  w.turfs[slot.toNat]?.bind TurfSlot.generation

/-- The register arm of `apply_turf_lifecycle`, after the turf was unlinked. -/
def registerTurf (w : DogmosWorld F) (handle : TurfHandle) (mixture : Option MixtureHandle) :
    DogmosWorld F :=
  let replacesGeneration := w.turfGeneration handle.slot ≠ some handle.generation
  let invalidatesContinuation :=
    replacesGeneration ∨ (w.turfAt handle.slot.toNat).all fun turf => turf.mixture ≠ mixture
  let w := if invalidatesContinuation then w.invalidateContinuationsForTurfSlot handle.slot else w
  let w :=
    if replacesGeneration then
      (w.deactivateTurfHeatSlot handle.slot).removeIncidentTurfEdges handle.slot
    else w
  let kept := if replacesGeneration then none else w.turfAt handle.slot.toNat
  let heat := kept.bind TurfRecord.heat
  let w := w.putTurf handle.slot fun _ =>
    { generation := some handle.generation
      turf := .new (some { mixture, heat, heatActiveIndex := kept.bind TurfRecord.heatActiveIndex }) }
  let w := w.linkTurfMixture handle.slot mixture
  let w := if mixture.isNone then w.removeIncidentGasEdges handle.slot else w
  if heat.isNone then w.removeIncidentHeatEdges handle.slot else w

/-- The unregister arm of `apply_turf_lifecycle`, after the turf was unlinked. -/
def unregisterTurf (w : DogmosWorld F) (handle : TurfHandle) : DogmosWorld F :=
  let w := (w.invalidateContinuationsForTurfSlot handle.slot).deactivateTurfHeatSlot handle.slot
  let w := w.putTurf handle.slot fun entry => { entry with turf := .vacant }
  (w.removeIncidentTurfEdges handle.slot).removeIncidentHeatEdges handle.slot

/-- One mutation of `apply_turf_lifecycle`. -/
def applyTurfMutation (w : DogmosWorld F) (mutation : TurfLifecycleMutation) : DogmosWorld F :=
  match mutation with
  | .register handle mixture => (w.unlinkTurfMixture handle.slot).registerTurf handle mixture
  | .unregister handle => (w.unlinkTurfMixture handle.slot).unregisterTurf handle

/-- The writing half of `apply_turf_lifecycle`. -/
def commitTurfLifecycle (w : DogmosWorld F) (mutations : List TurfLifecycleMutation) :
    DogmosWorld F :=
  mutations.foldl applyTurfMutation
    { w with
      turfs := growSlots w.turfs (mutations.map fun mutation => (turfMutationTarget mutation).1.slot)
        { generation := none, turf := .vacant } }

/-- `apply_turf_lifecycle`. -/
def applyTurfLifecycle (mutations : List TurfLifecycleMutation) : WorldM F UInt32 := do
  rejectActiveStage "apply turf lifecycle"
  let _ ← Exec.check fun w => mutations.foldlM w.projectTurfMutation ∅
  modify fun w => w.commitTurfLifecycle mutations
  return UInt32.ofNat mutations.length

/-! ## Turf heat -/

section Heat

variable [FloatFormat F]

/-- `turf_superconduction_temperature`. -/
def turfSuperconductionTemperature (w : DogmosWorld F) (handle : TurfHandle)
    (closedTurfTemperature : F) : Except WorldError F := do
  let turf ← w.requireTurfHandle handle
  match turf.mixture with
  | none => pure closedTurfTemperature
  | some mixture =>
    let mixture ← w.requireHandle mixture
    if mixture.gases.toList.any fun amount => minimumCalculatedMoles ≤ amount then
      pure (fmax closedTurfTemperature mixture.temperature)
    else pure closedTurfTemperature

/-- The check of `apply_turf_heat` on one mutation. -/
def validateTurfHeat (w : DogmosWorld F) (mutation : TurfHeatMutation F) :
    Except WorldError Unit := do
  let _ ← w.requireTurfHandle mutation.handle
  match mutation.state with
  | some state =>
    if ¬validTurfHeatState state then
      throw (.invalidTurfHeatState mutation.handle)
  | none => pure ()

/-- The temperature that decides whether a turf becomes active. -/
def activationTemperature (w : DogmosWorld F) (mutation : TurfHeatMutation F) :
    Except WorldError (Option F) :=
  match mutation.state with
  | none => pure none
  | some state => do
    let temperature ← w.turfSuperconductionTemperature mutation.handle state.temperature
    pure (some temperature)

/-- One mutation of `apply_turf_heat`. -/
def applyTurfHeatMutation (mutation : TurfHeatMutation F) : WorldM F Unit := do
  let slot := mutation.handle.slot
  let w ← get
  let wasActive := ((w.turfAt slot.toNat).bind TurfRecord.heatActiveIndex).isSome
  modify fun w => w.writeTurf slot.toNat fun turf => { turf with heat := mutation.state }
  let activationThreshold : F :=
    if wasActive then minimumTemperatureForSuperconductionK
    else minimumTemperatureStartSuperconductionK
  let temperature ← Exec.check fun w => w.activationTemperature mutation
  if temperature.any fun temperature => activationThreshold ≤ temperature then
    activateTurfHeat mutation.handle
  else
    modify fun w => w.deactivateTurfHeatSlot slot
  if mutation.state.isNone then
    modify fun w => w.removeIncidentHeatEdges slot

/-- `apply_turf_heat`. -/
def applyTurfHeat (mutations : List (TurfHeatMutation F)) : WorldM F UInt32 := do
  rejectActiveStage "apply turf heat"
  mutations.forM fun mutation => Exec.check fun w => w.validateTurfHeat mutation
  mutations.forM applyTurfHeatMutation
  return UInt32.ofNat mutations.length

end Heat

/-! ## Turf adjacency -/

/-- A topology operation, as an operation of the world. -/
def onTopology {α : Type} (m : Exec TopologyError PackedTopology α) : WorldM F α := do
  let w ← get
  modify fun w => { w with topology := m.final w.topology }
  Exec.check fun _ => (m.result w.topology).mapError mapTopologyError

/-- One mutation of `apply_turf_heat_adjacency`. -/
def applyTurfHeatAdjacencyMutation (mutation : TurfAdjacencyMutation) : WorldM F Unit := do
  let left ← Exec.check fun w => w.requireTurfHandle mutation.left
  let right ← Exec.check fun w => w.requireTurfHandle mutation.right
  if left.heat.isNone then
    throw (.turfHeatMissing mutation.left)
  if right.heat.isNone then
    throw (.turfHeatMissing mutation.right)
  if mutation.left.slot = mutation.right.slot then
    throw (.selfTurfHeatAdjacency mutation.left)
  if mutation.connected then
    let _ ← onTopology (PackedTopology.connectHeat mutation.left mutation.right)
  else
    modify fun w => { w with topology := w.topology.disconnectHeat mutation.left mutation.right }

/-- `apply_turf_heat_adjacency`. -/
def applyTurfHeatAdjacency (mutations : List TurfAdjacencyMutation) : WorldM F UInt32 := do
  rejectActiveStage "apply turf heat adjacency"
  mutations.forM applyTurfHeatAdjacencyMutation
  return UInt32.ofNat mutations.length

/-- One mutation of `apply_turf_adjacency`. -/
def applyTurfAdjacencyMutation (mutation : TurfAdjacencyMutation) : WorldM F Unit := do
  let left ← Exec.check fun w => w.requireTurfHandle mutation.left
  let right ← Exec.check fun w => w.requireTurfHandle mutation.right
  if left.mixture.isNone then
    throw (.turfMissingMixture mutation.left)
  if right.mixture.isNone then
    throw (.turfMissingMixture mutation.right)
  if mutation.left.slot = mutation.right.slot then
    throw (.selfTurfAdjacency mutation.left)
  if mutation.connected then
    let _ ← onTopology (PackedTopology.connectGas mutation.left mutation.right)
  else
    modify fun w => { w with topology := w.topology.disconnectGas mutation.left mutation.right }

/-- `apply_turf_adjacency`. -/
def applyTurfAdjacency (mutations : List TurfAdjacencyMutation) : WorldM F UInt32 := do
  rejectActiveStage "apply turf adjacency"
  mutations.forM applyTurfAdjacencyMutation
  return UInt32.ofNat mutations.length

/-- One mutation of `apply_turf_firelocks`. -/
def applyTurfFirelock (mutation : TurfFirelockMutation) : WorldM F Unit := do
  let _ ← Exec.check fun w => w.requireTurfHandle mutation.left
  let _ ← Exec.check fun w => w.requireTurfHandle mutation.right
  if mutation.left.slot = mutation.right.slot then
    throw (.selfTurfAdjacency mutation.left)
  let topology ← Exec.check fun w =>
    (w.topology.setFirelock mutation.left mutation.right mutation.firelock).mapError mapTopologyError
  modify fun w => { w with topology }

/-- `apply_turf_firelocks`. -/
def applyTurfFirelocks (mutations : List TurfFirelockMutation) : WorldM F UInt32 := do
  rejectActiveStage "apply turf firelocks"
  mutations.forM applyTurfFirelock
  return UInt32.ofNat mutations.length

/-! ## Mixture adjacency -/

/-- The nodes of `build_graph`: the occupied mixture slots. -/
def graphNodes (w : DogmosWorld F) : List GraphNode :=
  w.mixtures.zipIdx.filterMap fun (entry, slot) =>
    match entry.mixture.asRef w.publications, entry.generation with
    | some _, some generation =>
      some
        { handle := UInt32.ofNat slot
          generation
          mixture := some ⟨UInt32.ofNat slot, generation⟩ }
    | _, _ => none

/-- The edges of `build_graph`: both directions of every mixture edge. -/
def graphEdges (w : DogmosWorld F) : List DirectedEdge :=
  w.edges.keys.flatMap fun edge => [⟨edge.left, edge.right⟩, ⟨edge.right, edge.left⟩]

/-- `build_graph`. -/
def buildGraph (w : DogmosWorld F) : Except WorldError DiffusionGraph :=
  (validateGraph w.graphNodes w.graphEdges).mapError fun error => .graph error.display

section MixtureAdjacency

variable [FloatFormat F]

/-- One mutation of `apply_adjacency`: whether it changed the edges. -/
def applyAdjacencyMutation (mutation : AdjacencyMutation F) : WorldM F Bool := do
  let _ ← Exec.check fun w => w.requireHandle mutation.left
  let _ ← Exec.check fun w => w.requireHandle mutation.right
  if !FloatFormat.isFinite mutation.conductivity || mutation.conductivity < 0.0 then
    throw .invalidConductivity
  let key ← Exec.check fun _ => EdgeKey.new mutation.left.slot mutation.right.slot
  let w ← get
  if mutation.conductivity == 0.0 then
    if w.edges.contains key then
      modify fun w => { w with edges := w.edges.erase key }.unlinkMixtureEdge key
      return true
    return false
  else
    modify fun w => { w with edges := w.edges.insert key mutation.conductivity }
    if w.edges[key]?.any fun previous => previous == mutation.conductivity then
      return false
    modify fun w =>
      { w with
        mixtureEdges := SetIndex.link (SetIndex.link w.mixtureEdges key.left key) key.right key }
    return true

/-- `apply_adjacency`. -/
def applyAdjacency (mutations : List (AdjacencyMutation F)) : WorldM F UInt32 := do
  let changed ← mutations.foldlM
    (fun changed mutation => do
      let here ← applyAdjacencyMutation mutation
      pure (changed || here))
    false
  if changed then
    let _ ← Exec.check buildGraph
  return UInt32.ofNat mutations.length

end MixtureAdjacency

end DogmosWorld

end Dogmos
