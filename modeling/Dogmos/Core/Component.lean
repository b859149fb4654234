import Dogmos.Core.Lifecycle

/-!
# Component kernels

Equalize and excited groups work on one connected component of turfs at a time.
A kernel is a copy of what the component's turfs refer to, and the computation
reads only the kernel, so it can run while the world moves on.  The source
writes the computation as a future that yields between its steps; here the steps
are run at once and `polls` counts the yields.

The computations are written over `KernelView`, the lookups a kernel answers.
-/

namespace Dogmos

variable {F D : Type}

/-- What a kernel answers about the turfs it captured. -/
structure KernelView (F : Type) where
  handles : List TurfHandle
  handleAt : UInt32 → Option TurfHandle
  turf : TurfHandle → Option (TurfRecord F)
  mixture : MixtureHandle → Option (MixtureRecord F)
  gasNeighbors : TurfHandle → List TopologyNeighbor
  gasRegistry : Option (GasMetadataRegistry F)
  equalizeHardTurfLimit : UInt32

namespace ComponentKernel

/-- `ComponentKernel::new`. -/
def new (w : DogmosWorld F) : ComponentKernel F :=
  { handles := []
    handlesBySlot := .new
    turfs := .new
    mixtures := .new
    topology := .new
    gasRegistry := w.gasRegistry
    equalizeHardTurfLimit := w.equalizeHardTurfLimit }

/-- The mixture `ComponentKernel::capture` copies for a turf. -/
def captureMixture (w : DogmosWorld F) (kernel : ComponentKernel F) (turf : TurfRecord F) :
    Except WorldError (ComponentKernel F) :=
  match turf.mixture with
  | none => pure kernel
  | some handle => do
    let mixture ← w.requireHandle handle
    pure { kernel with mixtures := kernel.mixtures.insert handle mixture }

/-- `ComponentKernel::capture`. -/
def capture (kernel : ComponentKernel F) (w : DogmosWorld F) (handle : TurfHandle) :
    Except WorldError (ComponentKernel F) := do
  let turf ← w.requireTurfHandle handle
  let kernel ← captureMixture w kernel turf
  pure
    { kernel with
      turfs := kernel.turfs.insert handle turf
      handles := kernel.handles ++ [handle]
      handlesBySlot := kernel.handlesBySlot.insert handle.slot handle
      topology := kernel.topology.insert handle
        ((w.topology.gasNeighbors handle).take maxTurfNeighbors) }

/-- `ComponentKernel::clear`. -/
def clear (kernel : ComponentKernel F) : ComponentKernel F :=
  { kernel with
    handles := []
    handlesBySlot := kernel.handlesBySlot.clear
    turfs := kernel.turfs.clear
    mixtures := kernel.mixtures.clear
    topology := kernel.topology.clear }

/-- The lookups of a kernel. -/
def view (kernel : ComponentKernel F) : KernelView F :=
  { handles := kernel.handles
    handleAt := kernel.handlesBySlot.get
    turf := kernel.turfs.get
    mixture := kernel.mixtures.get
    gasNeighbors := fun handle => (kernel.topology.get handle).getD []
    gasRegistry := kernel.gasRegistry
    equalizeHardTurfLimit := kernel.equalizeHardTurfLimit }

end ComponentKernel

/-! ## Steps of a computation -/

/-- What a computation changes: the transaction, the events, and the yields so far. -/
structure ComponentProgress (F : Type) where
  polls : Nat
  transaction : IndexedTransaction (MixtureRecord F)
  events : List (WorldEvent F)

/-- A component computation. -/
abbrev ComponentM (F α : Type) := Exec WorldError (ComponentProgress F) α

namespace KernelView

/-- `cooperate`. -/
def cooperate : ComponentM F Unit :=
  modify fun progress => { progress with polls := progress.polls + 1 }

/-- Fails where a pure step fails. -/
def lift {α : Type} (result : Except WorldError α) : ComponentM F α := Exec.check fun _ => result

/-- Adds an event. -/
def emit (event : WorldEvent F) : ComponentM F Unit :=
  modify fun progress => { progress with events := progress.events ++ [event] }

/-- The transaction as it stands. -/
def currentTransaction : ComponentM F (IndexedTransaction (MixtureRecord F)) := do
  let progress ← get
  pure progress.transaction

/-- Replaces the candidate of a mixture. -/
def setCandidate (handle : MixtureHandle) (candidate : MixtureRecord F) : ComponentM F Unit :=
  modify fun progress =>
    { progress with transaction := progress.transaction.setCandidate handle candidate }

/-- `IndexedTransaction::touch` on the transaction of the computation. -/
def touch (handle : MixtureHandle) (mixture : MixtureRecord F) : ComponentM F Unit := do
  let transaction ← currentTransaction
  let touched ← lift
    ((transaction.touch handle mixture.revision mixture).mapError transactionWorldError)
  modify fun progress => { progress with transaction := touched }

variable (k : KernelView F)

/-- `ComponentKernel::require_turf_handle`. -/
def requireTurfHandle (handle : TurfHandle) : Except WorldError (TurfRecord F) :=
  match k.turf handle with
  | some turf => pure turf
  | none => throw (.unknownTurfHandle handle)

/-- `ComponentKernel::require_handle`. -/
def requireHandle (handle : MixtureHandle) : Except WorldError (MixtureRecord F) :=
  match k.mixture handle with
  | some mixture => pure mixture
  | none => throw (.unknownHandle handle)

/-- `ComponentKernel::current_turf_handle`. -/
def currentTurfHandle (slot : UInt32) : Except WorldError TurfHandle :=
  match k.handleAt slot with
  | some handle => pure handle
  | none => throw (.unknownTurfHandle ⟨slot, 0⟩)

variable [FloatFormat F] [FloatFormat D] [FloatCast F D]

/-- Fails when a mixture cannot take another revision. -/
def requireRevisable (handle : MixtureHandle) (mixture : MixtureRecord F) : Except WorldError Unit :=
  if mixture.revision = maxRevision then throw (.revisionExhausted handle) else pure ()

/-! ## Excited groups -/

/-- A turf of the kernel with its mixture; its position is its place in slot order. -/
abbrev ExcitedNodes := List (TurfHandle × MixtureHandle)

/-- The nodes of `compute_excited_groups`. -/
def excitedNodes : ComponentM F ExcitedNodes := do
  let ordered ← k.handles.foldlM
    (fun (ordered : Std.TreeMap UInt32 (TurfHandle × MixtureHandle)) handle => do
      cooperate
      match (k.turf handle).bind TurfRecord.mixture with
      | some mixture => pure (ordered.insert handle.slot (handle, mixture))
      | none => pure ordered)
    ∅
  ordered.toList.foldlM
    (fun nodes (_, node) => do
      cooperate
      pure (nodes ++ [node]))
    []

/-- `position_of`, for the handle that has to sit there. -/
def positionOf (nodes : ExcitedNodes) (handle : TurfHandle) : Option Nat :=
  match nodes.findIdx? fun node => node.1.slot = handle.slot with
  | some position =>
    if (nodes[position]?.map Prod.fst) = some handle then some position else none
  | none => none

/-- The search for one group: what was found so far in any group, the rest of the queue, the
accepted positions and the range of their pressures. -/
structure GroupSearch (F : Type) where
  found : List Bool
  queue : List Nat
  accepted : List Nat
  minimum : F
  maximum : F

/-- The neighbours of an accepted node join the queue. -/
def enqueueNeighbors (nodes : ExcitedNodes) (handle : TurfHandle) (search : GroupSearch F) :
    GroupSearch F :=
  (k.gasNeighbors handle).foldl
    (fun search neighbor =>
      match positionOf nodes neighbor.handle with
      | none => search
      | some position =>
        if search.found[position]?.getD true then search
        else
          { search with
            found := search.found.set position true
            queue := search.queue ++ [position] })
    search

/-- The most turfs of one group. -/
def maxGroupTurfs : Nat := 2500

/-- The loop of `compute_excited_groups` over the queue of one group.  A position enters the
queue once, so `steps` bounds the loop by the number of nodes. -/
def exploreGroup (nodes : ExcitedNodes) : Nat → GroupSearch F → ComponentM F (GroupSearch F)
  | 0, search => pure search
  | steps + 1, search =>
    match search.queue with
    | [] => pure search
    | position :: rest =>
      if maxGroupTurfs ≤ search.accepted.length then pure search
      else do
        cooperate
        match nodes[position]? with
        | none => pure search
        | some (handle, mixtureHandle) =>
          let mixture ← lift (k.requireHandle mixtureHandle)
          let pressure := mixturePressure mixture
          let minimum := fmin search.minimum pressure
          let maximum := fmax search.maximum pressure
          if mixture.immutable then exploreGroup nodes steps { search with queue := rest }
          else if excitedGroupPressureGoalKpa ≤ fabs (maximum - minimum) then
            exploreGroup nodes steps { search with queue := rest }
          else
            exploreGroup nodes steps
              (k.enqueueNeighbors nodes handle
                { search with
                  queue := rest
                  accepted := search.accepted ++ [position]
                  minimum
                  maximum })

/-- The sums of one group. -/
structure GroupTotals (F : Type) where
  gases : Gases F
  capacity : F
  energy : F
  mixtures : List MixtureHandle

/-- One mixture added to the sums of its group. -/
def addToGroup (heatValues : Gases F) (totals : GroupTotals F) (handle : MixtureHandle) :
    ComponentM F (GroupTotals F) := do
  cooperate
  let mixture ← lift (k.requireHandle handle)
  let transaction ← currentTransaction
  if transaction.contains handle || totals.mixtures.contains handle then
    throw (.duplicateMutableTurfMixture handle)
  lift (requireRevisable handle mixture)
  let capacity := recordHeatCapacity mixture heatValues.toList
  return { gases := Vector.zipWith (· + ·) totals.gases mixture.gases
           capacity := totals.capacity + capacity
           energy := totals.energy + capacity * mixture.temperature
           mixtures := handle :: totals.mixtures }

/-- The mean of a group written to one of its mixtures. -/
def writeGroupMean (gases : Gases F) (temperature : F) (workItems : UInt32)
    (handle : MixtureHandle) : ComponentM F UInt32 := do
  cooperate
  let mixture ← lift (k.requireHandle handle)
  touch handle mixture
  let transaction ← currentTransaction
  let candidate := (transaction.candidate handle).getD mixture
  setCandidate handle { candidate with gases, temperature }
  lift (if workItems = maxRevision then throw (.state "excited turf count exceeds u32")
    else pure (workItems + 1))

/-- The accepted turfs of a group take its mean. -/
def mixGroup (heatValues : Gases F) (handles : List MixtureHandle) (workItems : UInt32) :
    ComponentM F UInt32 := do
  let totals ← handles.foldlM (k.addToGroup heatValues)
    { gases := noGases, capacity := 0.0, energy := 0.0, mixtures := [] }
  let divisor : F := FloatFormat.ofNat handles.length
  let gases := totals.gases.map fun amount => amount / divisor
  let temperature :=
    if minimumHeatCapacity < totals.capacity then totals.energy / totals.capacity
    else minimumTemperatureK
  handles.foldlM (k.writeGroupMean gases temperature) workItems

/-- Whether a turf has a neighbour among the nodes. -/
def hasNeighbor (nodes : ExcitedNodes) (handle : TurfHandle) : Bool :=
  (k.gasNeighbors handle).any fun neighbor => (positionOf nodes neighbor.handle).isSome

/-- One initial position of `compute_excited_groups`. -/
def exciteFrom (nodes : ExcitedNodes) (heatValues : Gases F) (progress : List Bool × UInt32)
    (entry : (TurfHandle × MixtureHandle) × Nat) : ComponentM F (List Bool × UInt32) := do
  let (found, workItems) := progress
  let ((handle, mixtureHandle), position) := entry
  cooperate
  if found[position]?.getD true || !k.hasNeighbor nodes handle then
    return progress
  cooperate
  let mixture ← lift (k.requireHandle mixtureHandle)
  if mixture.immutable then
    return progress
  let pressure := mixturePressure mixture
  let search ← k.exploreGroup nodes nodes.length
    { found := found.set position true
      queue := [position]
      accepted := []
      minimum := pressure
      maximum := pressure }
  if search.accepted.isEmpty then
    return (search.found, workItems)
  let handles := search.accepted.filterMap fun position => nodes[position]?.map Prod.snd
  let workItems ← k.mixGroup heatValues handles workItems
  return (search.found, workItems)

/-- `compute_excited_groups`. -/
def computeExcitedGroups : ComponentM F UInt32 := do
  cooperate
  let nodes ← k.excitedNodes
  if nodes.isEmpty then
    return 0
  match k.gasRegistry with
  | none => throw .gasRegistryMissing
  | some registry => do
    let heatValues := paddedHeats registry.specificHeats
    let (_, workItems) ← nodes.zipIdx.foldlM (k.exciteFrom nodes heatValues)
      (List.replicate nodes.length false, 0)
    cooperate
    return workItems

/-! ## Decompression -/

/-- A breadth-first search over slots: what was seen, the queue with its processed part, and the
slot each one was reached from. -/
structure SlotSearch where
  seen : Std.TreeSet UInt32
  queue : List UInt32
  parents : Std.TreeMap UInt32 UInt32

/-- A slot reached from another one. -/
def SlotSearch.reach (search : SlotSearch) (slot parent : UInt32) : SlotSearch :=
  if search.seen.contains slot then search
  else
    { seen := search.seen.insert slot
      queue := search.queue ++ [slot]
      parents := search.parents.insert slot parent }

/-- The loop of `stage_decompression_component` over its queue; a slot enters the queue once. -/
def searchDecompression (slots : Std.TreeSet UInt32) :
    Nat → Nat → SlotSearch → ComponentM F SlotSearch
  | 0, _, search => pure search
  | steps + 1, index, search =>
    match search.queue[index]? with
    | none => pure search
    | some current => do
      cooperate
      let handle ← lift (k.currentTurfHandle current)
      let search := (k.gasNeighbors handle).foldl
        (fun search neighbor =>
          if slots.contains neighbor.handle.slot then
            SlotSearch.reach search neighbor.handle.slot current
          else search)
        search
      searchDecompression slots steps (index + 1) search

/-- The loss of one turf to a decompression. -/
def decompressTurf (removalPerTurf : F) (losses : Std.TreeMap UInt32 F)
    (entry : UInt32 × MixtureHandle) : ComponentM F (Std.TreeMap UInt32 F) := do
  let (slot, handle) := entry
  cooperate
  let transaction ← currentTransaction
  match transaction.candidate handle with
  | none => pure losses
  | some mixture =>
    let before := totalMoles mixture
    let ratio :=
      if 0.0 < before then FloatFormat.clamp (removalPerTurf / before) 0.0 1.0 else 0.0
    let after := { mixture with
      gases := mixture.gases.map fun amount => amount - quantizedRemoval amount ratio }
    setCandidate handle after
    pure (losses.insert slot (before - totalMoles after))

/-- The firelocks of one turf of a decompressing component are considered. -/
def considerFirelocks (slots immutableTurfs : Std.TreeSet UInt32) (left : UInt32) :
    ComponentM F Unit := do
  cooperate
  let handle ← lift (k.currentTurfHandle left)
  let considered := (k.gasNeighbors handle).filter fun neighbor =>
    neighbor.firelock && decide (left < neighbor.handle.slot) && slots.contains neighbor.handle.slot
  considered.forM fun neighbor => do
    let right := neighbor.handle.slot
    let (sourceSlot, targetSlot) :=
      if immutableTurfs.contains left && !immutableTurfs.contains right then (right, left)
      else (left, right)
    let source ← lift (k.currentTurfHandle sourceSlot)
    let target ← lift (k.currentTurfHandle targetSlot)
    emit (.firelockConsideration source target)

/-- The flow out of one turf of a decompressing component. -/
def flowFrom (mixturesByTurf : Std.TreeMap UInt32 MixtureHandle) (immutableTurfs : Std.TreeSet UInt32)
    (parents : Std.TreeMap UInt32 UInt32) (localLosses accumulated : Std.TreeMap UInt32 F)
    (sourceSlot : UInt32) : ComponentM F (Std.TreeMap UInt32 F) := do
  cooperate
  if !mixturesByTurf.contains sourceSlot then
    return accumulated
  match parents[sourceSlot]? with
  | none => return accumulated
  | some targetSlot =>
    let pressureMoles := accumulated[sourceSlot]?.getD 0.0
    if 0.0 < pressureMoles then
      let source ← lift (k.currentTurfHandle sourceSlot)
      let target ← lift (k.currentTurfHandle targetSlot)
      emit (.pressureDifference source target pressureMoles)
    if immutableTurfs.contains targetSlot then
      let molesLost := localLosses[sourceSlot]?.getD 0.0
      if 0.0 < molesLost then
        let turf ← lift (k.currentTurfHandle sourceSlot)
        emit (.decompressionFloorRip turf molesLost)
      return accumulated
    else if mixturesByTurf.contains targetSlot then
      return accumulated.insert targetSlot (accumulated[targetSlot]?.getD 0.0 + pressureMoles)
    else
      return accumulated

/-- Collects slots into a set, yielding at each. -/
def collectSlots (slots : List UInt32) : ComponentM F (Std.TreeSet UInt32) :=
  slots.foldlM
    (fun (set : Std.TreeSet UInt32) slot => do
      cooperate
      pure (set.insert slot))
    ∅

/-- The part of `stage_decompression_component` behind its search. -/
def decompress (slots immutableTurfs : Std.TreeSet UInt32)
    (mixturesByTurf : Std.TreeMap UInt32 MixtureHandle) (componentMoles : F)
    (search : SlotSearch) : ComponentM F Unit := do
  let mutableCount := mixturesByTurf.size
  if mutableCount = 0 then
    return ()
  let frontage : F := FloatFormat.ofNat (min (max immutableTurfs.size 1) 4)
  let removalPerTurf := componentMoles / FloatFormat.ofNat mutableCount * frontage / 4.0
  let localLosses ← mixturesByTurf.toList.foldlM (decompressTurf removalPerTurf)
    (∅ : Std.TreeMap UInt32 F)
  slots.toList.forM (k.considerFirelocks slots immutableTurfs)
  let _ ← search.queue.reverse.foldlM
    (k.flowFrom mixturesByTurf immutableTurfs search.parents localLosses) localLosses
  return ()

/-- `stage_decompression_component`. -/
def stageDecompressionComponent (component : List UInt32) (immutableTurfs : Std.TreeSet UInt32)
    (mixturesByTurf : Std.TreeMap UInt32 MixtureHandle) (componentMoles : F) :
    ComponentM F Unit := do
  let slots ← collectSlots component
  let reached ← collectSlots immutableTurfs.toList
  let search ← k.searchDecompression slots (component.length + immutableTurfs.size) 0
    { seen := reached, queue := immutableTurfs.toList, parents := ∅ }
  k.decompress slots immutableTurfs mixturesByTurf componentMoles search

/-! ## Equalization -/

/-- `stage_equalization_transfer`. -/
def stageEqualizationTransfer (mixturesByTurf : Std.TreeMap UInt32 MixtureHandle)
    (specificHeats : Gases F) (sourceSlot targetSlot : UInt32) (amount : F) :
    ComponentM F Unit := do
  match mixturesByTurf[sourceSlot]?, mixturesByTurf[targetSlot]? with
  | some sourceHandle, some targetHandle => do
    if sourceHandle = targetHandle then
      throw (.duplicateMutableTurfMixture sourceHandle)
    let transaction ← currentTransaction
    let (source, target) ← lift
      ((transaction.candidatePair sourceHandle targetHandle).mapError transactionWorldError)
    let (source, target, moved) ← lift
      ((transferMoles source target amount specificHeats).mapError WorldError.moleOverflow)
    setCandidate sourceHandle source
    setCandidate targetHandle target
    if 0.0 < moved then
      let sourceTurf ← lift (k.currentTurfHandle sourceSlot)
      let targetTurf ← lift (k.currentTurfHandle targetSlot)
      emit (.pressureDifference sourceTurf targetTurf moved)
  | _, _ => return ()

/-- The loop of `compute_equalize` over the queue of one component; `steps` bounds it by the
number of captured turfs, each of which enters the queue once. -/
def searchEqualize : Nat → Nat → SlotSearch → ComponentM F SlotSearch
  | 0, _, search => pure search
  | steps + 1, index, search =>
    match search.queue[index]? with
    | none => pure search
    | some current => do
      cooperate
      let neighbors := ((k.handleAt current).map k.gasNeighbors).getD []
      let search := neighbors.foldl
        (fun search neighbor =>
          if k.handleAt neighbor.handle.slot ≠ some neighbor.handle ∨
              k.equalizeHardTurfLimit.toNat ≤ search.queue.length then search
          else SlotSearch.reach search neighbor.handle.slot current)
        search
      searchEqualize steps (index + 1) search

/-- What the scan of a component finds. -/
structure ComponentScan (F : Type) where
  moles : F
  minimum : F
  maximum : F
  mixturesByTurf : Std.TreeMap UInt32 MixtureHandle
  immutableTurfs : Std.TreeSet UInt32
  mixtures : List MixtureHandle

/-- One turf of a component scanned; its mixture enters the transaction. -/
def scanTurf (scan : ComponentScan F) (slot : UInt32) : ComponentM F (ComponentScan F) := do
  cooperate
  let turfHandle ← lift (k.currentTurfHandle slot)
  let turf ← lift (k.requireTurfHandle turfHandle)
  match turf.mixture with
  | none => throw (.turfMissingMixture turfHandle)
  | some handle => do
    let mixture ← lift (k.requireHandle handle)
    if mixture.immutable then
      return { scan with immutableTurfs := scan.immutableTurfs.insert slot }
    let transaction ← currentTransaction
    if scan.mixtures.contains handle || transaction.contains handle then
      throw (.duplicateMutableTurfMixture handle)
    lift (requireRevisable handle mixture)
    let moles := totalMoles mixture
    touch handle mixture
    return { scan with
      moles := scan.moles + moles
      minimum := fmin scan.minimum moles
      maximum := fmax scan.maximum moles
      mixturesByTurf := scan.mixturesByTurf.insert slot handle
      mixtures := handle :: scan.mixtures }

/-- The surplus of one turf over the average of its component. -/
def addBalance (mixturesByTurf : Std.TreeMap UInt32 MixtureHandle) (average : F)
    (balances : Std.TreeMap UInt32 F) (slot : UInt32) : ComponentM F (Std.TreeMap UInt32 F) := do
  cooperate
  let transaction ← currentTransaction
  match (mixturesByTurf[slot]?).bind transaction.candidate with
  | some mixture => pure (balances.insert slot (totalMoles mixture - average))
  | none => pure balances

/-- The flow between a turf and the one it was reached from. -/
structure Flow (F : Type) where
  child : UInt32
  parent : UInt32
  balance : F

/-- The surplus of a turf moves to the turf it was reached from. -/
def addFlow (parents : Std.TreeMap UInt32 UInt32) (progress : List (Flow F) × Std.TreeMap UInt32 F)
    (child : UInt32) : ComponentM F (List (Flow F) × Std.TreeMap UInt32 F) := do
  cooperate
  let (flows, balances) := progress
  match parents[child]?, balances[child]? with
  | some parent, some balance =>
    pure
      (flows ++ [{ child, parent, balance }],
        balances.insert parent (balances[parent]?.getD 0.0 + balance))
  | _, _ => pure progress

/-- The flows of a component, from the leaves of its search tree up. -/
def componentFlows (search : SlotSearch) (scan : ComponentScan F) : ComponentM F (List (Flow F)) := do
  let average := scan.moles / FloatFormat.ofNat search.queue.length
  let balances ← search.queue.foldlM (addBalance scan.mixturesByTurf average)
    (∅ : Std.TreeMap UInt32 F)
  let (flows, _) ← (search.queue.drop 1).reverse.foldlM (addFlow search.parents) ([], balances)
  return flows

/-- The transfers of a component: surpluses up first, then deficits down. -/
def applyFlows (mixturesByTurf : Std.TreeMap UInt32 MixtureHandle) (specificHeats : Gases F)
    (flows : List (Flow F)) : ComponentM F Unit := do
  (flows.filter fun flow => 0.0 < flow.balance).forM fun flow => do
    cooperate
    k.stageEqualizationTransfer mixturesByTurf specificHeats flow.child flow.parent flow.balance
  (flows.reverse.filter fun flow => flow.balance < 0.0).forM fun flow => do
    cooperate
    k.stageEqualizationTransfer mixturesByTurf specificHeats flow.parent flow.child (-flow.balance)

/-- The turfs of a component added to the work done. -/
def countComponent (workItems : UInt32) (component : List UInt32) : Except WorldError UInt32 :=
  if 2 ^ 32 ≤ workItems.toNat + component.length then
    throw (.state "equalized turf count exceeds u32")
  else pure (workItems + UInt32.ofNat component.length)

/-- The part of `compute_equalize` behind the search of one component. -/
def equalizeComponent (specificHeats : Gases F) (search : SlotSearch) (workItems : UInt32) :
    ComponentM F UInt32 := do
  let component := search.queue
  let scan ← component.foldlM k.scanTurf
    { moles := 0.0
      minimum := FloatFormat.infinity
      maximum := 0.0
      mixturesByTurf := ∅
      immutableTurfs := ∅
      mixtures := [] }
  if !scan.immutableTurfs.isEmpty then
    if 10.0 ≤ scan.maximum ∧ ¬scan.mixturesByTurf.isEmpty then
      k.stageDecompressionComponent component scan.immutableTurfs scan.mixturesByTurf scan.moles
    lift (countComponent workItems component)
  else if scan.maximum < 10.0 ∨ scan.maximum - scan.minimum < minimumMolesDeltaToMove then
    return workItems
  else
    let flows ← componentFlows search scan
    k.applyFlows scan.mixturesByTurf specificHeats flows
    lift (countComponent workItems component)

/-- One start of `compute_equalize`. -/
def equalizeFrom (specificHeats : Gases F) (progress : Std.TreeSet UInt32 × UInt32)
    (start : TurfHandle) : ComponentM F (Std.TreeSet UInt32 × UInt32) := do
  let (visited, workItems) := progress
  cooperate
  let turf ← lift (k.requireTurfHandle start)
  if turf.mixture.isNone || visited.contains start.slot then
    return progress
  cooperate
  let search ← k.searchEqualize k.handles.length 0
    { seen := visited.insert start.slot, queue := [start.slot], parents := ∅ }
  if search.queue.length < 2 then
    return (search.seen, workItems)
  let workItems ← k.equalizeComponent specificHeats search workItems
  return (search.seen, workItems)

/-- `compute_equalize`. -/
def computeEqualize : ComponentM F UInt32 := do
  cooperate
  if k.handles.isEmpty then
    return 0
  let specificHeats :=
    match k.gasRegistry with
    | some registry => paddedHeats registry.specificHeats
    | none => noGases
  let (_, workItems) ← k.handles.foldlM (k.equalizeFrom specificHeats) (∅, 0)
  cooperate
  return workItems

end KernelView

/-- `compute`: the computation of a stage on a kernel. -/
def compute [FloatFormat F] [FloatFormat D] [FloatCast F D] (kernel : ComponentKernel F)
    (transaction : IndexedTransaction (MixtureRecord F)) (events : List (WorldEvent F))
    (stage : WorldStage) : Computation F :=
  let body :=
    match stage with
    | .equalize => KernelView.computeEqualize kernel.view
    | _ => KernelView.computeExcitedGroups kernel.view
  let (result, progress) := Exec.run body { polls := 0, transaction, events }
  { polls := progress.polls
    kernel
    transaction := progress.transaction
    events := progress.events
    result }

end Dogmos
