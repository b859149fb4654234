import Dogmos.Legacy.Mixture
import Dogmos.Lib.System
import Mathlib.Algebra.GroupWithZero.Nat

/-!
# The legacy arena of mixtures

The mixtures of the in-process backend live in a vector that only grows.  A mixture of the game
names its slot by a number it stores, the turfs of the graph name slots as well, and slots that no
mixture owns wait on a free list.  A slot can be on the list while a turf still names it, so the
turf graph counts, for each slot, the nodes that name it.

Numbers of the game are of the format binary32, so a slot is rounded when it is stored
(`asF32`).  How far a vector grows when it is full is up to the allocator.
-/

namespace Dogmos

namespace Legacy

/-! ## Slots as numbers of the game -/

/-- `idx as f32`, as the integer it is: rounded to 24 binary digits, to even between two. -/
def asF32 (idx : Nat) : Nat :=
  if idx < 2 ^ 24 then idx
  else
    let unit := 2 ^ (idx.log2 - 23)
    let below := idx / unit
    let rest := idx % unit
    if 2 * rest < unit ∨ 2 * rest = unit ∧ below % 2 = 0 then below * unit else (below + 1) * unit

/-- `gas_slot_from_number`, for a number that is no fraction. -/
def gasSlotFromNumber (rawSlot arenaLen : Nat) : Option Nat :=
  if arenaLen ≤ rawSlot then none else some rawSlot

/-! ## Vectors -/

/-- How an allocator lets a vector grow that has not enough room. -/
structure Allocator where
  grow : Nat → Nat → Nat
  enough : ∀ capacity needed, needed ≤ grow capacity needed

/-- The capacity of a vector that is to hold some number of items. -/
def Allocator.reserve (a : Allocator) (capacity needed : Nat) : Nat :=
  if needed ≤ capacity then capacity else a.grow capacity needed

/-- `Vec::swap_remove`, without the item that is returned. -/
def swapRemove {α : Type} (items : List α) (position : Nat) : List α :=
  match items.getLast? with
  | none => items
  | some last => (items.set position last).dropLast

/-! ## Turfs of the graph -/

/-- `TurfID`. -/
abbrev TurfId := UInt32

/-- `SimulationFlags::SIMULATION_ANY`. -/
def simulationAny : UInt8 := 0b11

/-- `TurfMixture`. -/
structure TurfMixture where
  mix : Nat
  id : TurfId
  generation : UInt32
  flags : UInt8
  planetaryAtmos : Option UInt32

/-- `TurfMixture::enabled`. -/
def TurfMixture.enabled (turf : TurfMixture) : Bool := turf.flags &&& simulationAny != 0

/-- The nodes of `TurfGases`: the graph by node index, the map from turfs to nodes, and the number
of nodes for each slot. -/
structure TurfGases where
  graph : List (Option TurfMixture)
  map : List (TurfId × Nat)
  mixRefcounts : List Nat

/-- `u32::MAX`, the largest count and the most nodes a graph has. -/
def maxCount : Nat := 2 ^ 32 - 1

namespace TurfGases

/-- `TurfGases::with_capacity`. -/
def new : TurfGases := { graph := [], map := [], mixRefcounts := [] }

/-- `acquire_mix`. -/
def acquireMix (t : TurfGases) (mix : Nat) : TurfGases :=
  let counts := t.mixRefcounts ++ List.replicate (mix + 1 - t.mixRefcounts.length) 0
  { t with mixRefcounts := counts.modify mix fun count => min (count + 1) maxCount }

/-- `release_mix`. -/
def releaseMix (t : TurfGases) (mix : Nat) : TurfGases :=
  { t with mixRefcounts := t.mixRefcounts.modify mix fun count => count - 1 }

/-- `mix_is_referenced`. -/
def mixIsReferenced (t : TurfGases) (mix : Nat) : Bool :=
  match t.mixRefcounts[mix]? with
  | some count => decide (0 < count)
  | none => false

/-- Which node `StableDiGraph` takes for a turf: a vacant one if there is any.  The one it wants is
taken where that one is vacant. -/
def vacantNode (t : TurfGases) (wanted : Nat) : Option Nat :=
  match t.graph[wanted]? with
  | some none => some wanted
  | _ => t.graph.findIdx? Option.isNone

/-- `StableDiGraph::add_node`: a vacant node is taken, or a new one; a graph that is full
panics.  Of several vacant nodes the graph takes the one it `wants`. -/
def addNode (t : TurfGases) (turf : TurfMixture) (wanted : Nat) : Option (TurfGases × Nat) :=
  match t.vacantNode wanted with
  | some node => some ({ t with graph := t.graph.set node (some turf) }, node)
  | none =>
    if maxCount ≤ t.graph.length then none
    else some ({ t with graph := t.graph ++ [some turf] }, t.graph.length)

/-- The node of a turf. -/
def nodeOf (t : TurfGases) (id : TurfId) : Option Nat :=
  (t.map.find? fun entry => entry.1 = id).map Prod.snd

/-- `insert_turf`; it panics where the graph does. -/
def insertTurf (t : TurfGases) (turf : TurfMixture) (wanted : Nat) : Option TurfGases :=
  match t.nodeOf turf.id with
  | some node =>
    match t.graph[node]? with
    | some (some previous) =>
      let written := { t with graph := t.graph.set node (some turf) }
      if previous.mix = turf.mix then some written
      else some ((written.releaseMix previous.mix).acquireMix turf.mix)
    | _ => none
  | none => do
    let (added, node) ← t.addNode turf wanted
    pure ({ added with map := added.map ++ [(turf.id, node)] }.acquireMix turf.mix)

/-- `remove_turf`; nothing reads the order of the map. -/
def removeTurf (t : TurfGases) (id : TurfId) : TurfGases :=
  match t.nodeOf id with
  | none => t
  | some node =>
    let unmapped := { t with map := t.map.filter fun entry => entry.1 ≠ id }
    match t.graph[node]? with
    | some (some removed) =>
      { unmapped with graph := unmapped.graph.set node none }.releaseMix removed.mix
    | _ => unmapped

/-- The number of nodes that name a slot. -/
def naming (t : TurfGases) (mix : Nat) : Nat :=
  t.graph.countP fun node => node.any fun turf => turf.mix = mix

end TurfGases

/-! ## The arena -/

variable {F : Type} [FloatFormat F]

/-- The statics of the arena: the mixtures, the free list `NEXT_GAS_IDS`, the capacities of the
two vectors, and `ACTIVE_MIXTURE_SLOTS`. -/
structure GasArena (F : Type) where
  mixtures : List (Mixture F)
  capacity : Nat
  nextGasIds : List Nat
  idsCapacity : Nat
  activeMixtureSlots : Nat

namespace GasArena

/-- The last place of the free list whose slot no turf names. -/
def reusablePosition (arena : GasArena F) (turfs : TurfGases) : Option Nat :=
  (List.range arena.nextGasIds.length).reverse.find? fun position =>
    match arena.nextGasIds[position]? with
    | none => false
    | some idx => decide (idx < arena.mixtures.length) && !turfs.mixIsReferenced idx

/-- The slot `register_mix` hands out. -/
def nextSlot (arena : GasArena F) (turfs : TurfGases) : Nat :=
  match (arena.reusablePosition turfs).bind fun position => arena.nextGasIds[position]? with
  | some idx => idx
  | none => arena.mixtures.length

/-- The number of slots `register_mix` adds beyond the one it needs. -/
def spareSlots (capacity idsCapacity len : Nat) : Nat :=
  if capacity - len = 0 then idsCapacity - 100 else min (idsCapacity - 100) (capacity - len)

/-- The part of `register_mix` that reuses a slot. -/
def reuse (arena : GasArena F) (position idx : Nat) (volume : F) : GasArena F :=
  { arena with
    nextGasIds := swapRemove arena.nextGasIds position
    mixtures := arena.mixtures.modify idx fun mixture => mixture.clearWithVol volume
    activeMixtureSlots := arena.activeMixtureSlots + 1 }

/-- The part of `register_mix` that makes the arena grow. -/
def extend (a : Allocator) (arena : GasArena F) (volume : F) : GasArena F :=
  let len := arena.mixtures.length + 1
  let capacity := a.reserve arena.capacity len
  let spare := spareSlots capacity arena.idsCapacity len
  { mixtures := arena.mixtures ++ [.fromVol volume] ++ List.replicate spare .new
    capacity := a.reserve capacity (len + spare)
    nextGasIds := arena.nextGasIds ++ List.range' len spare
    idsCapacity := a.reserve arena.idsCapacity (arena.nextGasIds.length + spare)
    activeMixtureSlots := arena.activeMixtureSlots + 1 }

/-- `register_mix`: the slot it hands out, and the arena after it.  The volume is checked first. -/
def registerMix (a : Allocator) (arena : GasArena F) (turfs : TurfGases) (volume : F) :
    Option (Nat × GasArena F) :=
  if !FloatFormat.isFinite volume || decide (volume < 0.0) then none
  else
    match arena.reusablePosition turfs with
    | some position =>
      match arena.nextGasIds[position]? with
      | some idx => some (idx, arena.reuse position idx volume)
      | none => none
    | none => some (arena.mixtures.length, arena.extend a volume)

/-- `unregister_mix`, of the mixture that stores a number. -/
def unregisterMix (a : Allocator) (arena : GasArena F) (rawSlot : Nat) : GasArena F :=
  match gasSlotFromNumber rawSlot arena.mixtures.length with
  | none => arena
  | some idx =>
    if arena.nextGasIds.contains idx then arena
    else
      { arena with
        nextGasIds := arena.nextGasIds ++ [idx]
        idsCapacity := a.reserve arena.idsCapacity (arena.nextGasIds.length + 1)
        activeMixtureSlots := arena.activeMixtureSlots - 1 }

/-- `amt_gases`. -/
def amtGases (arena : GasArena F) : Nat := arena.mixtures.length - arena.nextGasIds.length

end GasArena

/-! ## Runs -/

/-- The arena, the turf graph, and the numbers that the live mixtures of the game store. -/
structure ArenaWorld (F : Type) where
  arena : GasArena F
  turfs : TurfGases
  live : List Nat

/-- What is done to the arena and the graph. -/
inductive ArenaOp (F : Type)
  | registerMix (volume : F)
  /-- The live mixture at a place is unregistered, and is not live any more. -/
  | unregisterMix (place : Nat)
  /-- A turf is inserted; a graph with several vacant nodes takes the wanted one. -/
  | insertTurf (turf : TurfMixture) (wanted : Nat)
  | removeTurf (id : TurfId)

namespace ArenaWorld

/-- One operation; one that is rejected or panics changes nothing. -/
def step (a : Allocator) (w : ArenaWorld F) : ArenaOp F → ArenaWorld F
  | .registerMix volume =>
    match w.arena.registerMix a w.turfs volume with
    | some (idx, arena) => { w with arena, live := w.live ++ [asF32 idx] }
    | none => w
  | .unregisterMix place =>
    match w.live[place]? with
    | some rawSlot =>
      { w with arena := w.arena.unregisterMix a rawSlot, live := w.live.eraseIdx place }
    | none => w
  | .insertTurf turf wanted => { w with turfs := (w.turfs.insertTurf turf wanted).getD w.turfs }
  | .removeTurf id => { w with turfs := w.turfs.removeTurf id }

/-- The arena after `initialize_gases`; the allocator may give more room than is asked for. -/
def Initial (w : ArenaWorld F) : Prop :=
  w.arena.mixtures = [] ∧ w.arena.nextGasIds = [] ∧ w.arena.activeMixtureSlots = 0 ∧
    240000 ≤ w.arena.capacity ∧ 2000 ≤ w.arena.idsCapacity ∧ w.turfs = .new ∧ w.live = []

/-- A turf is inserted with the slot of a live mixture. -/
def Admissible (w : ArenaWorld F) : ArenaOp F → Prop
  | .insertTurf turf _ => turf.mix ∈ w.live
  | _ => True

/-- A slot is handed out as the number it is, to a mixture whose volume is accepted. -/
def Exact (w : ArenaWorld F) : ArenaOp F → Prop
  | .registerMix volume => FloatFormat.isFinite volume = true → ¬volume < 0.0 →
    asF32 (w.arena.nextSlot w.turfs) = w.arena.nextSlot w.turfs
  | _ => True

/-- Each slot has one owner. -/
structure OneOwner (w : ArenaWorld F) : Prop where
  /-- The free list has no duplicates. -/
  free : w.arena.nextGasIds.Nodup
  /-- The free list lies inside the arena. -/
  inside : ∀ slot ∈ w.arena.nextGasIds, slot < w.arena.mixtures.length
  /-- No two mixtures own one slot. -/
  owners : w.live.Nodup
  /-- No slot is owned and free. -/
  disjoint : ∀ slot ∈ w.live, slot ∉ w.arena.nextGasIds
  /-- Free and owned slots make up the arena. -/
  whole : ∀ slot, slot < w.arena.mixtures.length ↔ slot ∈ w.arena.nextGasIds ∨ slot ∈ w.live
  active : w.arena.amtGases = w.arena.activeMixtureSlots
  /-- Turfs are counted for each slot. -/
  counted : ∀ mix, w.turfs.mixRefcounts[mix]?.getD 0 = w.turfs.naming mix
  /-- The slot that is handed out is named by no turf, and holds a new mixture. -/
  handed : ∀ a volume idx arena, w.arena.registerMix a w.turfs volume = some (idx, arena) →
    w.turfs.naming idx = 0 ∧ arena.mixtures[idx]? = some (.fromVol volume) ∧
      (Mixture.fromVol volume).moles = [] ∧ (Mixture.fromVol volume).immutable = false ∧
      (Mixture.fromVol volume).volume = volume

end ArenaWorld

end Legacy

end Dogmos
