import Dogmos.Topology.Handshake
import Dogmos.Topology.Removal
import Dogmos.Runs.Batches
import Dogmos.Runs.Shapes

/-!
# The topology of a world is well-formed

A turf may have gas edges while it has a mixture and heat edges while it has
heat (`occupancy`).  `Wired` says that the topology of a world is well-formed
against that.  Each batch keeps it, also when it is rejected part-way, and the
other operations do not change shapes or edges, so it holds in every reachable
world (`wired_of_reachable`).
-/

namespace Dogmos

namespace DogmosWorld

open Exec PackedTopology

variable {F D : Type}

/-- The turfs that may have edges: gas edges with a mixture, heat edges with heat. -/
def occupancy (w : DogmosWorld F) : Occupancy := fun heat handle =>
  ∃ shape, w.turfShape handle = some shape ∧ (if heat then shape.2 else shape.1.isSome) = true

theorem generation_of_turfShape {w : DogmosWorld F} {handle : TurfHandle}
    {shape : Option MixtureHandle × Bool} (h : w.turfShape handle = some shape) :
    w.turfGeneration handle.slot = some handle.generation := by
  by_contra hne
  unfold turfShape at h
  rw [if_neg hne] at h
  cases h

theorem turfHandle_eq {a b : TurfHandle} (hslot : a.slot = b.slot)
    (hgeneration : a.generation = b.generation) : a = b := by
  cases a
  cases b
  simp_all

theorem occupancy_functional (w : DogmosWorld F) : w.occupancy.Functional := by
  rintro heat a b ⟨shape, ha, -⟩ ⟨shape', hb, -⟩ hslot
  have hga := generation_of_turfShape ha
  have hgb := generation_of_turfShape hb
  rw [hslot, hgb] at hga
  exact turfHandle_eq hslot (Option.some.inj hga).symm

/-- The topology of a world is well-formed, and so are the candidates of its turfs. -/
structure Wired (w : DogmosWorld F) : Prop where
  agrees : w.Agrees
  joined : Joined w.occupancy w.topology

theorem Wired.of_keepsShapes {w w' : DogmosWorld F} (hw : Wired w) (h : KeepsShapes w w') :
    Wired w' := by
  refine ⟨h.agrees hw.agrees, ?_⟩
  have hsame : w'.occupancy = w.occupancy := by
    unfold occupancy
    rw [h.shapes hw.agrees]
  rw [hsame, h.topology]
  exact hw.joined

/-! ## One turf rewritten -/

section Rewrite

variable {w w' : DogmosWorld F} {slot : UInt32}

/-- The shapes of the turfs in other slots are the same. -/
def SameElsewhere (slot : UInt32) (w w' : DogmosWorld F) : Prop :=
  ∀ handle : TurfHandle, handle.slot ≠ slot → w'.turfShape handle = w.turfShape handle

theorem SameElsewhere.occupancy (h : SameElsewhere slot w w') {heat : Bool} {handle : TurfHandle}
    (hne : handle.slot ≠ slot) (hok : w.occupancy heat handle) : w'.occupancy heat handle := by
  obtain ⟨shape, hshape, hhas⟩ := hok
  exact ⟨shape, (h handle hne).trans hshape, hhas⟩

theorem sameElsewhere_of_records
    (hgeneration : ∀ other, other ≠ slot → w'.turfGeneration other = w.turfGeneration other)
    (hrecord : ∀ other, other ≠ slot.toNat → w'.turfAt other = w.turfAt other) :
    SameElsewhere slot w w' := by
  intro handle hne
  unfold turfShape
  rw [hgeneration _ hne, hrecord _ fun heq => hne (UInt32.toNat_inj.1 heq)]

theorem sameElsewhere_writeTurf (w : DogmosWorld F) (slot : UInt32)
    (f : TurfRecord F → TurfRecord F) : SameElsewhere slot w (w.writeTurf slot.toNat f) := by
  refine sameElsewhere_of_records (fun other _ => turfGeneration_writeTurf ..) fun other hne => ?_
  rw [turfAt_writeTurf, if_neg hne]

theorem sameElsewhere_putTurf (w : DogmosWorld F) (slot : UInt32)
    (f : TurfSlot F → TurfSlot F) : SameElsewhere slot w (w.putTurf slot f) :=
  sameElsewhere_of_records (fun _ hne => turfGeneration_putTurf_of_ne w slot f hne)
    fun _ hne => turfAt_putTurf_of_ne w slot f hne

theorem agrees_writeTurf (h : w.Agrees) (slot : Nat) (f : TurfRecord F → TurfRecord F) :
    (w.writeTurf slot f).Agrees := by
  unfold writeTurf
  split
  · exact h
  · intro entry hentry
    rcases List.mem_or_eq_of_mem_set hentry with hold | rfl
    · exact h entry hold
    · intro id candidate hpending
      cases hpending

theorem agrees_putTurf (h : w.Agrees) (slot : UInt32) (f : TurfSlot F → TurfSlot F)
    (hf : ∀ entry, (f entry).turf.pending = none) : (w.putTurf slot f).Agrees := by
  intro entry hentry id candidate hpending
  unfold putTurf at hentry
  obtain ⟨index, hindex⟩ := List.mem_iff_getElem?.1 hentry
  dsimp only at hindex
  rw [List.getElem?_modify] at hindex
  rcases hold : w.turfs[index]? with _ | old
  · rw [hold] at hindex
    cases hindex
  · rw [hold] at hindex
    by_cases hslot : slot.toNat = index
    · have heq : f old = entry := by simpa [hslot] using hindex
      rw [← heq, hf] at hpending
      cases hpending
    · have heq : old = entry := by simpa [hslot] using hindex
      subst heq
      exact h old (List.mem_of_getElem? hold) id candidate hpending

theorem Wired.removeIncidentTurfEdges (hw : Joined w.occupancy w.topology) (hagrees : w'.Agrees)
    (hsame : SameElsewhere slot w w') (htopology : w'.topology = w.topology) :
    Wired (w'.removeIncidentTurfEdges slot) := by
  refine ⟨hagrees, ?_⟩
  show Joined w'.occupancy (w'.topology.removeSlot slot)
  rw [htopology]
  exact joined_removeSlot (occupancy_functional w) hw fun heat handle hne hok =>
    hsame.occupancy hne hok

/-- A turf that loses its mixture loses its edges. -/
theorem wired_detachTurf (hw : Wired w) (slot : UInt32) : Wired (w.detachTurf slot) := by
  refine Wired.removeIncidentTurfEdges hw.joined (agrees_writeTurf hw.agrees _ _)
    (sameElsewhere_writeTurf w slot _) ?_
  unfold writeTurf
  split <;> rfl

end Rewrite

/-! ## Edges of one kind inserted again -/

section Reconnect

variable {ok : Occupancy} {topology : PackedTopology} {this : TurfHandle}

theorem joined_reconnectHeat (hok : ok.Functional) (partners : List TopologyNeighbor) :
    ∀ {topology : PackedTopology}, Joined ok topology →
      (∀ partner ∈ partners, ok true this ∧ ok true partner.handle) →
      Joined ok (reconnectHeat topology this partners) := by
  induction partners with
  | nil => exact fun h _ => h
  | cons partner rest ih =>
    intro topology h hpartners
    obtain ⟨hthis, hpartner⟩ := hpartners partner (by simp)
    refine ih (joined_connectCounted hok h hthis hpartner) fun other ho => ?_
    exact hpartners other (by simp [ho])

theorem joined_keepFirelock (hok : ok.Functional) (h : Joined ok topology) {other : TurfHandle}
    (hthis : ok false this) (hother : ok false other) (firelock : Bool) :
    Joined ok (keepFirelock topology this other firelock) := by
  unfold keepFirelock
  split
  · next updated hset => exact joined_setFirelock hok h hthis hother hset
  · exact h

theorem joined_reconnectGas (hok : ok.Functional) (partners : List TopologyNeighbor) :
    ∀ {topology : PackedTopology}, Joined ok topology →
      (∀ partner ∈ partners, ok false this ∧ ok false partner.handle) →
      Joined ok (reconnectGas topology this partners) := by
  induction partners with
  | nil => exact fun h _ => h
  | cons partner rest ih =>
    intro topology h hpartners
    obtain ⟨hthis, hpartner⟩ := hpartners partner (by simp)
    have hconnected := joined_connectCounted hok h hthis hpartner
    refine ih (joined_keepFirelock hok hconnected hthis hpartner _) fun other ho => ?_
    exact hpartners other (by simp [ho])

/-- The partners of a turf and the turf itself may have edges of the kind. -/
theorem joined_partners (h : Joined ok topology) {heat : Bool} {partner : TopologyNeighbor}
    (hp : partner ∈ topology.neighbors heat this.slot.toNat) :
    partner.handle.slot ≠ this.slot ∧ ok heat partner.handle ∧
      ∃ generation, ok heat ⟨this.slot, generation⟩ := by
  obtain ⟨generation, hmem⟩ := h.mirrored heat this.slot partner hp
  exact ⟨fun heq => h.irreflexive heat _ partner hp (congrArg UInt32.toNat heq),
    h.live heat _ partner hp, generation, h.live heat _ _ hmem⟩

end Reconnect

section Incident

variable {w : DogmosWorld F} {ok : Occupancy} {slot : UInt32}

/-- The handle that may have edges in a slot is the current one. -/
theorem occupancy_of_current {handle : TurfHandle} {heat : Bool} {generation : UInt32}
    (hcurrent : w.currentTurfHandle slot = .ok handle)
    (hok : w.occupancy heat ⟨handle.slot, generation⟩) : w.occupancy heat handle := by
  obtain ⟨-, turf, hturf⟩ := currentTurfHandle_eq_ok.1 hcurrent
  obtain ⟨shape, hshape, hhas⟩ := hok
  have hgeneration := generation_of_turfShape hshape
  rw [(requireTurfHandle_eq_ok.1 hturf).1] at hgeneration
  have hsame : handle = ⟨handle.slot, generation⟩ :=
    turfHandle_eq rfl (Option.some.inj hgeneration)
  rw [hsame]
  exact ⟨shape, hshape, hhas⟩

/-- Removing the gas edges of a slot from a topology that is well-formed for another occupancy,
which differs in that slot and allows no other heat edges. -/
theorem joined_removeIncidentGasEdges (hok : ok.Functional) (h : Joined ok w.topology)
    (hrest : ∀ heat handle, handle.slot ≠ slot → ok heat handle → w.occupancy heat handle)
    (hheat : ∀ handle, ok true handle → w.occupancy true handle) :
    Joined (w.removeIncidentGasEdges slot).occupancy (w.removeIncidentGasEdges slot).topology := by
  have hremoved := joined_removeSlot hok h hrest
  unfold removeIncidentGasEdges
  split
  · next this hthis =>
    obtain ⟨rfl, -⟩ := currentTurfHandle_eq_ok.1 hthis
    refine joined_reconnectHeat (occupancy_functional w) _ hremoved fun partner hp => ?_
    obtain ⟨hne, hpartner, generation, hself⟩ := joined_partners h hp
    exact ⟨occupancy_of_current hthis (hheat _ hself), hheat _ hpartner⟩
  · exact hremoved

theorem joined_removeIncidentHeatEdges (hok : ok.Functional) (h : Joined ok w.topology)
    (hrest : ∀ heat handle, handle.slot ≠ slot → ok heat handle → w.occupancy heat handle)
    (hgas : ∀ handle, ok false handle → w.occupancy false handle) :
    Joined (w.removeIncidentHeatEdges slot).occupancy (w.removeIncidentHeatEdges slot).topology := by
  have hremoved := joined_removeSlot hok h hrest
  unfold removeIncidentHeatEdges
  split
  · next this hthis =>
    obtain ⟨rfl, -⟩ := currentTurfHandle_eq_ok.1 hthis
    refine joined_reconnectGas (occupancy_functional w) _ hremoved fun partner hp => ?_
    obtain ⟨hne, hpartner, generation, hself⟩ := joined_partners h hp
    exact ⟨occupancy_of_current hthis (hgas _ hself), hgas _ hpartner⟩
  · exact hremoved

theorem wired_removeIncidentGasEdges (hw : Wired w) (slot : UInt32) :
    Wired (w.removeIncidentGasEdges slot) := by
  refine ⟨?_, joined_removeIncidentGasEdges (occupancy_functional w) hw.joined
    (fun _ _ _ hok => hok) fun _ hok => hok⟩
  unfold removeIncidentGasEdges
  split <;> exact hw.agrees

theorem wired_removeIncidentHeatEdges (hw : Wired w) (slot : UInt32) :
    Wired (w.removeIncidentHeatEdges slot) := by
  refine ⟨?_, joined_removeIncidentHeatEdges (occupancy_functional w) hw.joined
    (fun _ _ _ hok => hok) fun _ hok => hok⟩
  unfold removeIncidentHeatEdges
  split <;> exact hw.agrees

end Incident

/-! ## The batches -/

section Batches

variable {w : DogmosWorld F}

theorem wired_writeTurf_of_keepsShape (hw : Wired w) (slot : Nat)
    {f : TurfRecord F → TurfRecord F} (hf : KeepsShape f) : Wired (w.writeTurf slot f) :=
  hw.of_keepsShapes (keepsShapes_writeTurf w slot hf)

theorem wired_of_same {w' : DogmosWorld F} (hw : Wired w) (hturfs : w'.turfs = w.turfs)
    (htopology : w'.topology = w.topology) : Wired w' :=
  hw.of_keepsShapes (.of_turfs hturfs htopology)

theorem wired_deactivateTurfHeatSlot (hw : Wired w) (slot : UInt32) :
    Wired (w.deactivateTurfHeatSlot slot) := by
  unfold deactivateTurfHeatSlot
  split
  · exact hw
  · next index _ =>
    have hremoved : Wired { w with heatActive := swapRemove w.heatActive index.toNat } :=
      wired_of_same hw rfl rfl
    refine wired_writeTurf_of_keepsShape ?_ _ (keepsShape_withIndex none)
    dsimp only
    split
    · exact wired_writeTurf_of_keepsShape hremoved _ (keepsShape_withIndex _)
    · exact hremoved

theorem keeps_wired_activateTurfHeat (handle : TurfHandle) :
    Keeps Wired (activateTurfHeat (F := F) handle) := by
  unfold activateTurfHeat
  refine keeps_check_bind fun turf => keeps_ite (fun _ => keeps_get_bind fun w => ?_) fun _ => ?_
  · refine keeps_ite (fun _ => keeps_throw _) fun _ => keeps_modify fun w hw => ?_
    have hpushed : Wired { w with heatActive := w.heatActive ++ [handle] } :=
      wired_of_same hw rfl rfl
    exact wired_writeTurf_of_keepsShape hpushed _ (keepsShape_withIndex _)
  · exact keeps_pure _

theorem turfs_invalidateContinuations (w : DogmosWorld F) (p : ReactionContinuation F → Bool) :
    (w.invalidateContinuations p).turfs = w.turfs ∧
      (w.invalidateContinuations p).topology = w.topology := by
  unfold invalidateContinuations
  generalize w.continuations.zipIdx = entries
  induction entries generalizing w with
  | nil => exact ⟨rfl, rfl⟩
  | cons entry rest ih =>
    rw [List.foldl_cons]
    obtain ⟨hturfs, htopology⟩ := ih
      (if entry.1.continuation.any p then w.freeContinuation entry.2 entry.1.generation else w)
    rw [hturfs, htopology]
    split <;> exact ⟨rfl, rfl⟩

/-! ### Mixture lifecycle -/

theorem wired_removeIncidentMixtureEdges (hw : Wired w) (slot : UInt32) :
    Wired (w.removeIncidentMixtureEdges slot) := by
  unfold removeIncidentMixtureEdges
  split
  · exact hw
  · refine foldl_invariant (I := Wired) ?_ _ (wired_of_same hw rfl rfl)
    intro world key h
    exact wired_of_same h rfl rfl

theorem wired_detachMixture (hw : Wired w) (mixture : MixtureHandle) :
    Wired (w.detachMixture mixture) := by
  unfold detachMixture
  split
  · exact hw
  · exact foldl_invariant (I := Wired) (fun _ slot h => wired_detachTurf h slot) _ (wired_of_same hw rfl rfl)

variable [FloatFormat F]

theorem wired_applyMutation {progress : DogmosWorld F × Std.TreeSet UInt32}
    (hw : Wired progress.1) (mutation : LifecycleMutation) :
    Wired (applyMutation progress mutation).1 := by
  obtain ⟨w, invalidated⟩ := progress
  obtain ⟨hturfs, htopology⟩ := turfs_invalidateContinuations w
    fun continuation => decide (continuation.mixture.slot = mutation.handle.slot)
  have hput : ∀ f, Wired ((w.invalidateContinuationsForMixtureSlot mutation.handle.slot).putMixture
      mutation.handle.slot f) := fun _ => wired_of_same hw hturfs htopology
  unfold applyMutation
  dsimp only
  split
  · split
    · exact hput _
    · exact hw
  · exact hput _

theorem wired_commitLifecycle (hw : Wired w) (mutations : List LifecycleMutation) :
    Wired (w.commitLifecycle mutations) := by
  have hfold : ∀ (l : List LifecycleMutation) (progress : DogmosWorld F × Std.TreeSet UInt32),
      Wired progress.1 → Wired (l.foldl applyMutation progress).1 := by
    intro l
    induction l with
    | nil => exact fun _ h => h
    | cons mutation rest ih => exact fun progress h => ih _ (wired_applyMutation h mutation)
  unfold commitLifecycle
  refine foldl_invariant (I := Wired) (fun _ mixture h => wired_detachMixture h mixture) _ ?_
  refine foldl_invariant (I := Wired) (fun _ slot h => wired_removeIncidentMixtureEdges h slot) _ ?_
  exact hfold mutations _ (wired_of_same hw rfl rfl)

theorem keeps_wired_applyLifecycle (mutations : List LifecycleMutation) :
    Keeps Wired (applyLifecycle (F := F) mutations) := by
  unfold applyLifecycle
  refine keeps_check_bind fun _ => keeps_bind (keeps_modify fun w hw => ?_) fun _ => keeps_pure _
  exact wired_commitLifecycle hw mutations

/-! ### Turf lifecycle -/

omit [FloatFormat F] in
theorem wired_unlinkTurfMixture (hw : Wired w) (slot : UInt32) :
    Wired (w.unlinkTurfMixture slot) := by
  unfold unlinkTurfMixture
  split
  · exact wired_of_same hw rfl rfl
  · exact hw

omit [FloatFormat F] in
theorem wired_linkTurfMixture (hw : Wired w) (slot : UInt32) (mixture : Option MixtureHandle) :
    Wired (w.linkTurfMixture slot mixture) := by
  unfold linkTurfMixture
  split
  · exact wired_of_same hw rfl rfl
  · exact hw

omit [FloatFormat F] in
theorem wired_invalidateContinuations (hw : Wired w) (p : ReactionContinuation F → Bool) :
    Wired (w.invalidateContinuations p) :=
  wired_of_same hw (turfs_invalidateContinuations w p).1 (turfs_invalidateContinuations w p).2

omit [FloatFormat F] in
/-- The last two steps of registering a turf. -/
theorem wired_removeMissing (hw : Wired w) (slot : UInt32) (noMixture noHeat : Bool) :
    Wired
      (let w := if noMixture then w.removeIncidentGasEdges slot else w
      if noHeat then w.removeIncidentHeatEdges slot else w) := by
  have hgas : Wired (if noMixture then w.removeIncidentGasEdges slot else w) := by
    split
    · exact wired_removeIncidentGasEdges hw slot
    · exact hw
  dsimp only
  split
  · exact wired_removeIncidentHeatEdges hgas slot
  · exact hgas

/-- The slot of a turf that was just put in its place. -/
def registeredTurf (handle : TurfHandle) (record : TurfRecord F) : TurfSlot F :=
  { generation := some handle.generation, turf := .new (some record) }

omit [FloatFormat F] in
theorem turfShape_put {handle : TurfHandle} {entry : TurfSlot F}
    (hentry : w.turfs[handle.slot.toNat]? = some entry) (record : TurfRecord F) :
    (w.putTurf handle.slot fun _ => registeredTurf handle record).turfShape handle =
      some record.shape := by
  have hself := turfs_putTurf_self w handle.slot fun _ => registeredTurf handle record
  rw [hentry, Option.map_some] at hself
  unfold turfShape turfGeneration turfAt
  rw [hself, Option.bind_some, Option.bind_some]
  exact if_pos rfl

omit [FloatFormat F] in
/-- A turf put in its place again may have the edges its record allows. -/
theorem occupancy_putTurf (heat : Bool) {handle : TurfHandle}
    (hgeneration : w.turfGeneration handle.slot = some handle.generation) {record : TurfRecord F}
    (hkept : ∀ turf, w.turfAt handle.slot.toNat = some turf →
      (if heat then turf.shape.2 else turf.shape.1.isSome) = true →
        (if heat then record.shape.2 else record.shape.1.isSome) = true)
    (other : TurfHandle) (hok : w.occupancy heat other) :
    (w.putTurf handle.slot fun _ => registeredTurf handle record).occupancy heat other := by
  obtain ⟨entry, hentry, -⟩ := Option.bind_eq_some_iff.1 hgeneration
  obtain ⟨shape, hshape, hhas⟩ := hok
  by_cases hslot : other.slot = handle.slot
  · have hother := generation_of_turfShape hshape
    rw [hslot, hgeneration] at hother
    have hsame : other = handle := turfHandle_eq hslot (Option.some.inj hother).symm
    subst hsame
    obtain ⟨turf, hturf, rfl⟩ := turfShape_eq_some.1 hshape
    exact ⟨record.shape, turfShape_put hentry record,
      hkept turf (requireTurfHandle_eq_ok.1 hturf).2 hhas⟩
  · exact (sameElsewhere_putTurf w handle.slot _).occupancy hslot ⟨shape, hshape, hhas⟩

omit [FloatFormat F] in
/-- The turf of a slot is put in its place again, and loses its gas edges without a mixture. -/
theorem wired_putTurf (hw : Wired w) (handle : TurfHandle)
    (hgeneration : w.turfGeneration handle.slot = some handle.generation) (record : TurfRecord F)
    (hheat : ∀ turf, w.turfAt handle.slot.toNat = some turf →
      turf.heat.isSome = record.heat.isSome) :
    Wired
      (if record.mixture.isNone then
        (w.putTurf handle.slot fun _ => registeredTurf handle record).removeIncidentGasEdges
          handle.slot
      else w.putTurf handle.slot fun _ => registeredTurf handle record) := by
  have hagrees := agrees_putTurf hw.agrees handle.slot (fun _ => registeredTurf handle record)
    fun _ => rfl
  have hkept := occupancy_putTurf true hgeneration fun turf hturf hhas =>
    (hheat turf hturf).symm.trans hhas
  by_cases hmixture : record.mixture.isNone
  · rw [if_pos hmixture]
    refine ⟨?_, joined_removeIncidentGasEdges (occupancy_functional w) hw.joined
      (fun heat other hne hok => (sameElsewhere_putTurf w handle.slot _).occupancy hne hok) hkept⟩
    unfold removeIncidentGasEdges
    split <;> exact hagrees
  · rw [if_neg hmixture]
    refine ⟨hagrees, hw.joined.mono fun heat other hok => ?_⟩
    cases heat with
    | true => exact hkept other hok
    | false =>
      refine occupancy_putTurf false hgeneration (fun turf _ _ => ?_) other hok
      simpa [TurfRecord.shape, Option.isSome_iff_ne_none] using hmixture

omit [FloatFormat F] in
/-- A turf of another generation takes the place of the one in a slot. -/
theorem wired_putTurf_of_removed (hw : Wired w) (handle : TurfHandle) (record : TurfRecord F) :
    Wired ((w.removeIncidentTurfEdges handle.slot).putTurf handle.slot fun _ =>
      registeredTurf handle record) := by
  refine ⟨agrees_putTurf (w := w.removeIncidentTurfEdges handle.slot) hw.agrees _ _ fun _ => rfl, ?_⟩
  refine joined_removeSlot (occupancy_functional w) hw.joined fun heat other hne hok => ?_
  have hsame := sameElsewhere_putTurf w handle.slot fun _ => registeredTurf handle record
  exact hsame.occupancy hne hok

omit [FloatFormat F] in
theorem wired_registerTurf (hw : Wired w) (handle : TurfHandle) (mixture : Option MixtureHandle) :
    Wired (w.registerTurf handle mixture) := by
  unfold registerTurf
  dsimp only
  generalize hinvalidated : (if w.turfGeneration handle.slot ≠ some handle.generation ∨
      (w.turfAt handle.slot.toNat).all (fun turf => decide (turf.mixture ≠ mixture)) = true then
    w.invalidateContinuationsForTurfSlot handle.slot else w) = before
  have hbefore : Wired before := by
    rw [← hinvalidated]
    split
    · exact wired_invalidateContinuations hw _
    · exact hw
  have hturfs : before.turfs = w.turfs := by
    rw [← hinvalidated]
    split
    · exact (turfs_invalidateContinuations w _).1
    · rfl
  have hgeneration : before.turfGeneration handle.slot = w.turfGeneration handle.slot := by
    unfold turfGeneration
    rw [hturfs]
  by_cases hreplaces : w.turfGeneration handle.slot ≠ some handle.generation
  · simp only [hreplaces, not_false_eq_true, if_true, ne_eq]
    have hput := wired_putTurf_of_removed (wired_deactivateTurfHeatSlot hbefore handle.slot)
      handle { mixture, heat := none, heatActiveIndex := none }
    exact wired_removeMissing (wired_linkTurfMixture hput handle.slot mixture) handle.slot
      mixture.isNone true
  · rw [not_not] at hreplaces
    simp only [hreplaces, ne_eq, not_true_eq_false, if_false]
    set kept := before.turfAt handle.slot.toNat with hkept
    have hput := wired_putTurf hbefore handle (hgeneration.trans hreplaces)
      { mixture, heat := kept.bind TurfRecord.heat
        heatActiveIndex := kept.bind TurfRecord.heatActiveIndex }
      (fun turf hturf => by rw [hkept, hturf]; rfl)
    have hlinked : Wired
        (if mixture.isNone then
          (((before.putTurf handle.slot fun _ => registeredTurf handle
            { mixture, heat := kept.bind TurfRecord.heat
              heatActiveIndex := kept.bind TurfRecord.heatActiveIndex }).linkTurfMixture
                handle.slot mixture).removeIncidentGasEdges handle.slot)
        else
          ((before.putTurf handle.slot fun _ => registeredTurf handle
            { mixture, heat := kept.bind TurfRecord.heat
              heatActiveIndex := kept.bind TurfRecord.heatActiveIndex }).linkTurfMixture
                handle.slot mixture)) := by
      cases mixture with
      | none => exact hput
      | some mixture => exact wired_linkTurfMixture hput handle.slot (some mixture)
    split
    · exact wired_removeIncidentHeatEdges hlinked handle.slot
    · exact hlinked

omit [FloatFormat F] in
theorem wired_unregisterTurf (hw : Wired w) (handle : TurfHandle) :
    Wired (w.unregisterTurf handle) := by
  have hbefore := wired_deactivateTurfHeatSlot (wired_invalidateContinuations hw fun continuation =>
    continuation.turf.any fun turf => turf.slot = handle.slot) handle.slot
  refine wired_removeIncidentHeatEdges ?_ handle.slot
  exact Wired.removeIncidentTurfEdges hbefore.joined
    (agrees_putTurf hbefore.agrees handle.slot _ fun _ => rfl)
    (sameElsewhere_putTurf _ handle.slot _) rfl

omit [FloatFormat F] in
theorem wired_applyTurfMutation (hw : Wired w) (mutation : TurfLifecycleMutation) :
    Wired (w.applyTurfMutation mutation) := by
  cases mutation with
  | register handle mixture => exact wired_registerTurf (wired_unlinkTurfMixture hw _) handle mixture
  | unregister handle => exact wired_unregisterTurf (wired_unlinkTurfMixture hw _) handle

theorem getElem?_growSlots {α : Type} (slots : List UInt32) (vacant : α) (n : Nat) :
    ∀ table : List α, (growSlots table slots vacant)[n]? = table[n]? ∨
      (table[n]? = none ∧ (growSlots table slots vacant)[n]? = some vacant) := by
  induction slots with
  | nil => exact fun _ => .inl rfl
  | cons slot rest ih =>
    intro table
    have hgrown := getElem?_growTo table slot.toNat n vacant
    rcases ih (growTo table slot.toNat vacant) with hsame | ⟨hnone, hvacant⟩
    · by_cases hlen : n < table.length
      · rw [if_pos hlen] at hgrown
        exact .inl (hsame.trans hgrown)
      · rw [if_neg hlen] at hgrown
        have hnone : table[n]? = none := List.getElem?_eq_none (Nat.le_of_not_lt hlen)
        split at hgrown
        · exact .inr ⟨hnone, hsame.trans hgrown⟩
        · rw [hnone]
          exact .inl (hsame.trans hgrown)
    · by_cases hlen : n < table.length
      · rw [if_pos hlen] at hgrown
        exact .inr ⟨hgrown.symm.trans hnone, hvacant⟩
      · exact .inr ⟨List.getElem?_eq_none (Nat.le_of_not_lt hlen), hvacant⟩

omit [FloatFormat F] in
/-- Growing the table of turfs changes no shape. -/
theorem wired_growTurfs (hw : Wired w) (slots : List UInt32) :
    Wired { w with turfs := growSlots w.turfs slots { generation := none, turf := .vacant } } := by
  have hgrown := getElem?_growSlots slots ({ generation := none, turf := .vacant } : TurfSlot F)
  have hagrees : DogmosWorld.Agrees
      { w with turfs := growSlots w.turfs slots { generation := none, turf := .vacant } } := by
    intro entry hentry id candidate hpending
    obtain ⟨n, hn⟩ := List.mem_iff_getElem?.1 hentry
    rcases hgrown n w.turfs with hsame | ⟨-, hvacant⟩
    · exact hw.agrees entry (List.mem_of_getElem? (hsame.symm.trans hn)) id candidate hpending
    · rw [hn] at hvacant
      cases hvacant
      cases hpending
  refine ⟨hagrees, ?_⟩
  have hshape : DogmosWorld.turfShape
      { w with turfs := growSlots w.turfs slots { generation := none, turf := .vacant } } =
        w.turfShape := by
    funext handle
    unfold turfShape turfGeneration turfAt
    dsimp only
    rcases hgrown handle.slot.toNat w.turfs with hsame | ⟨hnone, hvacant⟩
    · rw [hsame]
    · rw [hvacant, hnone]
      rfl
  have hsame : DogmosWorld.occupancy
      { w with turfs := growSlots w.turfs slots { generation := none, turf := .vacant } } =
        w.occupancy := by
    unfold occupancy
    rw [hshape]
  rw [hsame]
  exact hw.joined

omit [FloatFormat F] in
theorem keeps_wired_applyTurfLifecycle (mutations : List TurfLifecycleMutation) :
    Keeps Wired (applyTurfLifecycle (F := F) mutations) := by
  unfold applyTurfLifecycle
  refine keeps_bind (keeps_rejectActiveStage _) fun _ => keeps_check_bind fun _ => ?_
  refine keeps_bind (keeps_modify fun w hw => ?_) fun _ => keeps_pure _
  exact foldl_invariant (I := Wired) (fun _ mutation h => wired_applyTurfMutation h mutation) _
    (wired_growTurfs hw _)

/-! ### Turf heat, adjacency and firelocks -/

omit [FloatFormat F] in
/-- A turf may get heat, and the edges it may have without are still there. -/
theorem wired_setHeat (hw : Wired w) (slot : UInt32) (heat : TurfHeatState F) :
    Wired (w.writeTurf slot.toNat fun turf => { turf with heat := some heat }) := by
  refine ⟨agrees_writeTurf hw.agrees _ _, ?_⟩
  have htopology : (w.writeTurf slot.toNat fun turf => { turf with heat := some heat }).topology =
      w.topology := by
    unfold writeTurf
    split <;> rfl
  rw [htopology]
  refine hw.joined.mono fun kind handle hok => ?_
  by_cases hslot : handle.slot = slot
  · obtain ⟨shape, hshape, hhas⟩ := hok
    obtain ⟨turf, hturf, rfl⟩ := turfShape_eq_some.1 hshape
    obtain ⟨hgeneration, hrecord⟩ := requireTurfHandle_eq_ok.1 hturf
    refine ⟨(turf.mixture, true), turfShape_eq_some.2
      ⟨{ turf with heat := some heat }, requireTurfHandle_eq_ok.2 ⟨?_, ?_⟩, rfl⟩, ?_⟩
    · rw [turfGeneration_writeTurf, hgeneration]
    · rw [turfAt_writeTurf, if_pos (congrArg UInt32.toNat hslot), hrecord, Option.map_some]
    · cases kind with
      | true => rfl
      | false => exact hhas
  · exact (sameElsewhere_writeTurf w slot _).occupancy hslot hok

omit [FloatFormat F] in
/-- A turf that loses its heat loses its heat edges; its active index does not matter. -/
theorem wired_clearHeat (hw : Wired w) (slot : UInt32) :
    Wired (((w.writeTurf slot.toNat fun turf => { turf with heat := none }).deactivateTurfHeatSlot
      slot).removeIncidentHeatEdges slot) := by
  set cleared := w.writeTurf slot.toNat fun turf => { turf with heat := none } with hcleared
  have hagrees : cleared.Agrees := agrees_writeTurf hw.agrees _ _
  have htopology : cleared.topology = w.topology := by
    rw [hcleared]
    unfold writeTurf
    split <;> rfl
  have hkeeps : KeepsShapes cleared (cleared.deactivateTurfHeatSlot slot) := by
    unfold deactivateTurfHeatSlot
    split
    · exact .refl _
    · next index _ =>
      refine KeepsShapes.trans ?_ (keepsShapes_writeTurf _ _ (keepsShape_withIndex none))
      dsimp only
      split
      · next moved _ =>
        refine KeepsShapes.trans ?_ (keepsShapes_writeTurf _ _ (keepsShape_withIndex (some index)))
        exact .of_turfs rfl rfl
      · exact .of_turfs rfl rfl
  have hsame : ∀ handle : TurfHandle, handle.slot ≠ slot →
      (cleared.deactivateTurfHeatSlot slot).turfShape handle = w.turfShape handle := by
    intro handle hne
    rw [hkeeps.shapes hagrees]
    exact sameElsewhere_writeTurf w slot _ handle hne
  refine ⟨?_, joined_removeIncidentHeatEdges (occupancy_functional w) ?_
    (fun heat handle hne hok => SameElsewhere.occupancy hsame hne hok) ?_⟩
  · unfold removeIncidentHeatEdges
    split <;> exact hkeeps.agrees hagrees
  · rw [hkeeps.topology, htopology]
    exact hw.joined
  · rintro handle ⟨shape, hshape, hhas⟩
    by_cases hslot : handle.slot = slot
    · obtain ⟨turf, hturf, rfl⟩ := turfShape_eq_some.1 hshape
      obtain ⟨hgeneration, hrecord⟩ := requireTurfHandle_eq_ok.1 hturf
      refine ⟨(turf.mixture, false), ?_, hhas⟩
      rw [hkeeps.shapes hagrees, turfShape_eq_some]
      refine ⟨{ turf with heat := none }, requireTurfHandle_eq_ok.2 ⟨?_, ?_⟩, rfl⟩
      · rw [hcleared, turfGeneration_writeTurf, hgeneration]
      · rw [hcleared, turfAt_writeTurf, if_pos (congrArg UInt32.toNat hslot), hrecord,
          Option.map_some]
    · exact SameElsewhere.occupancy hsame hslot ⟨shape, hshape, hhas⟩

theorem keeps_wired_applyTurfHeatMutation (mutation : TurfHeatMutation F) :
    Keeps Wired (applyTurfHeatMutation mutation) := by
  rcases mutation with ⟨handle, _ | heat⟩
  · intro w hw
    have hcleared := wired_clearHeat hw handle.slot
    unfold applyTurfHeatMutation
    rw [run_bind, run_get]
    dsimp only
    rw [run_bind, run_modify]
    dsimp only
    rw [run_bind, run_check]
    exact hcleared
  · unfold applyTurfHeatMutation
    refine keeps_get_bind fun _ => ?_
    dsimp only
    refine keeps_bind (keeps_modify fun w hw => wired_setHeat hw handle.slot heat) fun _ => ?_
    refine keeps_check_bind fun temperature => keeps_ite (fun _ => ?_) fun _ => ?_
    · refine keeps_bind (keeps_wired_activateTurfHeat handle) fun _ => ?_
      exact keeps_ite (fun h => absurd h (by simp)) fun _ => keeps_pure _
    · refine keeps_bind (keeps_modify fun w hw => wired_deactivateTurfHeatSlot hw _) fun _ => ?_
      exact keeps_ite (fun h => absurd h (by simp)) fun _ => keeps_pure _

theorem keeps_wired_applyTurfHeat (mutations : List (TurfHeatMutation F)) :
    Keeps Wired (applyTurfHeat mutations) := by
  unfold applyTurfHeat
  refine keeps_bind (keeps_rejectActiveStage _) fun _ => ?_
  refine keeps_bind (keeps_forM fun _ _ => keeps_check _) fun _ => ?_
  refine keeps_bind (keeps_forM fun mutation _ => ?_) fun _ => keeps_pure _
  exact keeps_wired_applyTurfHeatMutation mutation

omit [FloatFormat F] in
theorem occupancy_of_require {handle : TurfHandle} {turf : TurfRecord F} (heat : Bool)
    (hturf : w.requireTurfHandle handle = .ok turf)
    (hhas : (if heat then turf.heat.isSome else turf.mixture.isSome) = true) :
    w.occupancy heat handle :=
  ⟨turf.shape, turfShape_eq_some.2 ⟨turf, hturf, rfl⟩, hhas⟩

omit [FloatFormat F] in
/-- A topology operation that keeps a topology well-formed, as an operation of the world. -/
theorem wired_onTopology (hw : Wired w) {α : Type} {m : Exec TopologyError PackedTopology α}
    (hm : Joined w.occupancy (m.final w.topology)) : Wired (run (onTopology m) w).2 := by
  unfold onTopology
  rw [run_bind, run_get]
  dsimp only
  rw [run_bind, run_modify]
  dsimp only
  rw [run_check]
  exact ⟨hw.agrees, hm⟩

omit [FloatFormat F] in
/-- Two turfs that may have edges of a kind, connected or disconnected. -/
theorem wired_connect (hw : Wired w) {heat : Bool} {left right : TurfHandle}
    (hleft : w.occupancy heat left) (hright : w.occupancy heat right) (connected : Bool) :
    Wired
      (run
        (if connected then do
          let _ ← onTopology (connectCounted left right heat)
        else
          modify fun w => { w with topology := w.topology.disconnectCounted left right heat } :
            WorldM F Unit) w).2 := by
  have hok := occupancy_functional w
  cases connected with
  | true =>
    have hconnected := wired_onTopology hw (joined_connectCounted hok hw.joined hleft hright)
    rw [if_pos rfl, run_bind]
    split
    · next heq =>
      rw [heq] at hconnected
      exact hconnected
    · next heq =>
      rw [heq] at hconnected
      exact hconnected
  | false => exact ⟨hw.agrees, joined_disconnectCounted hok hw.joined hleft hright⟩

omit [FloatFormat F] in
theorem keeps_wired_applyTurfHeatAdjacencyMutation (mutation : TurfAdjacencyMutation) :
    Keeps Wired (applyTurfHeatAdjacencyMutation (F := F) mutation) := by
  intro w hw
  unfold applyTurfHeatAdjacencyMutation
  rw [run_bind, run_check]
  rcases hleft : w.requireTurfHandle mutation.left with error | left
  · exact hw
  dsimp only
  rw [run_bind, run_check]
  rcases hright : w.requireTurfHandle mutation.right with error | right
  · exact hw
  dsimp only
  by_cases hl : left.heat.isNone
  · rw [if_pos hl]
    exact hw
  rw [if_neg hl]
  by_cases hr : right.heat.isNone
  · rw [if_pos hr]
    exact hw
  rw [if_neg hr]
  by_cases hslot : mutation.left.slot = mutation.right.slot
  · rw [if_pos hslot]
    exact hw
  rw [if_neg hslot]
  exact wired_connect hw (occupancy_of_require true hleft (Option.isSome_iff_ne_none.2 (by simpa using hl)))
    (occupancy_of_require true hright (Option.isSome_iff_ne_none.2 (by simpa using hr))) mutation.connected

omit [FloatFormat F] in
theorem keeps_wired_applyTurfAdjacencyMutation (mutation : TurfAdjacencyMutation) :
    Keeps Wired (applyTurfAdjacencyMutation (F := F) mutation) := by
  intro w hw
  unfold applyTurfAdjacencyMutation
  rw [run_bind, run_check]
  rcases hleft : w.requireTurfHandle mutation.left with error | left
  · exact hw
  dsimp only
  rw [run_bind, run_check]
  rcases hright : w.requireTurfHandle mutation.right with error | right
  · exact hw
  dsimp only
  by_cases hl : left.mixture.isNone
  · rw [if_pos hl]
    exact hw
  rw [if_neg hl]
  by_cases hr : right.mixture.isNone
  · rw [if_pos hr]
    exact hw
  rw [if_neg hr]
  by_cases hslot : mutation.left.slot = mutation.right.slot
  · rw [if_pos hslot]
    exact hw
  rw [if_neg hslot]
  exact wired_connect hw (occupancy_of_require false hleft (Option.isSome_iff_ne_none.2 (by simpa using hl)))
    (occupancy_of_require false hright (Option.isSome_iff_ne_none.2 (by simpa using hr))) mutation.connected

omit [FloatFormat F] in
/-- A gas edge that is found is between turfs that have mixtures. -/
theorem occupancy_of_findNeighbor {left right : TurfHandle} {turf : TurfRecord F}
    (hw : Wired w) (hleft : w.requireTurfHandle left = .ok turf) {neighbor : TopologyNeighbor}
    (hfind : w.topology.findNeighbor left right false = some neighbor) :
    w.occupancy false left ∧ w.occupancy false right := by
  have hmem := List.mem_of_find?_eq_some hfind
  have hhandle : neighbor.handle = right := by simpa using List.find?_some hfind
  obtain ⟨-, hright, generation, hok⟩ := joined_partners hw.joined hmem
  refine ⟨?_, hhandle ▸ hright⟩
  obtain ⟨shape, hshape, hhas⟩ := hok
  have hgeneration := generation_of_turfShape hshape
  rw [(requireTurfHandle_eq_ok.1 hleft).1] at hgeneration
  have hsame : left = ⟨left.slot, generation⟩ := turfHandle_eq rfl (Option.some.inj hgeneration)
  rw [hsame]
  exact ⟨shape, hshape, hhas⟩

omit [FloatFormat F] in
theorem keeps_wired_applyTurfFirelock (mutation : TurfFirelockMutation) :
    Keeps Wired (applyTurfFirelock (F := F) mutation) := by
  intro w hw
  unfold applyTurfFirelock
  rw [run_bind, run_check]
  rcases hleft : w.requireTurfHandle mutation.left with error | left
  · exact hw
  dsimp only
  rw [run_bind, run_check]
  rcases hright : w.requireTurfHandle mutation.right with error | right
  · exact hw
  dsimp only
  by_cases hslot : mutation.left.slot = mutation.right.slot
  · rw [if_pos hslot]
    exact hw
  rw [if_neg hslot, run_bind, run_check]
  rcases hset : w.topology.setFirelock mutation.left mutation.right mutation.firelock with
    error | updated
  · exact hw
  have hfound : ∃ neighbor,
      w.topology.findNeighbor mutation.left mutation.right false = some neighbor := by
    rcases hfind : w.topology.findNeighbor mutation.left mutation.right false with _ | neighbor
    · unfold setFirelock at hset
      rw [hfind] at hset
      cases hset
    · exact ⟨neighbor, rfl⟩
  obtain ⟨neighbor, hfind⟩ := hfound
  obtain ⟨hokLeft, hokRight⟩ := occupancy_of_findNeighbor hw hleft hfind
  exact ⟨hw.agrees,
    joined_setFirelock (occupancy_functional w) hw.joined hokLeft hokRight hset⟩

variable [FloatFormat D] [FloatCast F D]

/-- The batches that change shapes or edges keep the topology well-formed. -/
theorem keeps_wired_exec_of_isBatch {op : Op F D} (hop : op.IsBatch) :
    Keeps Wired (exec op) := by
  cases op with
  | applyLifecycle mutations => exact keeps_discard (keeps_wired_applyLifecycle mutations)
  | applyTurfLifecycle mutations => exact keeps_discard (keeps_wired_applyTurfLifecycle mutations)
  | applyTurfHeat mutations => exact keeps_discard (keeps_wired_applyTurfHeat mutations)
  | applyTurfHeatAdjacency mutations =>
    exact keeps_discard (keeps_batch _ mutations keeps_wired_applyTurfHeatAdjacencyMutation)
  | applyTurfAdjacency mutations =>
    exact keeps_discard (keeps_batch _ mutations keeps_wired_applyTurfAdjacencyMutation)
  | applyTurfFirelocks mutations =>
    exact keeps_discard (keeps_batch _ mutations keeps_wired_applyTurfFirelock)
  | _ => cases hop

end Batches

/-! ## Every reachable world -/

section Runs

variable [FloatFormat F] [FloatFormat D] [FloatCast F D]

/-- An operation keeps the topology well-formed, whether it succeeds or is rejected. -/
theorem wired_step {w : DogmosWorld F} (hw : Wired w) (op : Op F D) : Wired (step w op) := by
  by_cases hop : op.IsBatch
  · exact keeps_wired_exec_of_isBatch hop w hw
  · have hkept : Keeps (KeepsShapes w) (exec op) :=
      keeps_exec (reactionClosed_keepsShapes w) (fun _ _ h => h.trans (.of_turfs rfl rfl))
        (fun _ _ hstep h => h.trans (keepsShapes_of_stageStep hstep)) hop
    exact hw.of_keepsShapes (hkept w (.refl w))

omit [FloatFormat F] in
theorem wired_of_initial {w : DogmosWorld F} (h : Initial w) : Wired w := by
  obtain ⟨_, _, _, _, _, rfl⟩ := h
  exact ⟨fun _ hentry => (by cases hentry), Joined.empty _⟩

theorem wired_of_reachable {w : DogmosWorld F} (h : Reachable (D := D) w) : Wired w :=
  reachable_induct (fun _ hinit => wired_of_initial hinit) (fun _ op hw => wired_step hw op) h

/-- What is promised of the rows, the edges and the counters of the packed topology. -/
structure WellFormedTopology (w : DogmosWorld F) : Prop where
  /-- The occupied entries are a sorted prefix of at most six, without duplicates. -/
  rows : ∀ entry ∈ w.topology.slots, ∀ heat, ∃ neighbors : List TopologyNeighbor,
    entry.row heat = neighbors.map some ++ List.replicate (6 - neighbors.length) none ∧
      neighbors.length ≤ 6 ∧ neighbors.Pairwise fun a b => a.handle < b.handle
  /-- An entry joins the turf of its row and another turf: both are registered under the handles
  the edge names, both have what the kind of edge needs, and the other row has the same flag. -/
  edges : ∀ heat slot, ∀ neighbor ∈ w.topology.neighbors heat slot,
    ∃ this turf other, this.slot.toNat = slot ∧ neighbor.handle.slot ≠ this.slot ∧
      w.requireTurfHandle this = .ok turf ∧ w.requireTurfHandle neighbor.handle = .ok other ∧
      ⟨this, neighbor.firelock⟩ ∈ w.topology.neighbors heat neighbor.handle.slot.toNat ∧
      (heat = false → turf.mixture.isSome ∧ other.mixture.isSome) ∧
      (heat = true → turf.heat.isSome ∧ other.heat.isSome)
  gas_counted : w.topology.gasEdges = (w.topology.slotEdges false).length
  heat_counted : w.topology.heatEdges = (w.topology.slotEdges true).length

omit [FloatFormat F] in
/-- A handle that may have edges is registered, with what the kind of edge needs. -/
theorem exists_turf_of_occupancy {w : DogmosWorld F} {heat : Bool} {handle : TurfHandle}
    (hok : w.occupancy heat handle) :
    ∃ turf, w.requireTurfHandle handle = .ok turf ∧
      (heat = false → turf.mixture.isSome) ∧ (heat = true → turf.heat.isSome) := by
  obtain ⟨shape, hshape, hhas⟩ := hok
  obtain ⟨turf, hturf, rfl⟩ := turfShape_eq_some.1 hshape
  refine ⟨turf, hturf, ?_, ?_⟩
  · rintro rfl
    exact hhas
  · rintro rfl
    exact hhas

omit [FloatFormat F] in
theorem Wired.wellFormedTopology {w : DogmosWorld F} (hw : Wired w) : WellFormedTopology w := by
  have hok := occupancy_functional w
  refine ⟨?_, ?_, edgeCount_eq_length_slotEdges hw.joined hok false,
    edgeCount_eq_length_slotEdges hw.joined hok true⟩
  · intro entry hentry heat
    have hpacked := hw.joined.packed entry hentry heat
    exact ⟨_, hpacked.eq_pack, hpacked.tidy.bounded, hpacked.tidy.ascending⟩
  · intro heat slot neighbor hneighbor
    have hlen := lt_of_mem_neighbors hneighbor
    have hbound := hw.joined.bounded
    have hslot : (UInt32.ofNat slot).toNat = slot :=
      UInt32.toNat_ofNat_of_lt' (by show slot < 2 ^ 32; omega)
    rw [← hslot] at hneighbor
    obtain ⟨generation, hmirror⟩ := hw.joined.mirrored heat _ neighbor hneighbor
    obtain ⟨turf, hturf, hgas, hheat⟩ :=
      exists_turf_of_occupancy (hw.joined.live heat _ _ hmirror)
    obtain ⟨other, hother, hgas', hheat'⟩ :=
      exists_turf_of_occupancy (hw.joined.live heat _ _ hneighbor)
    refine ⟨⟨UInt32.ofNat slot, generation⟩, turf, other, hslot, ?_, hturf, hother, hmirror,
      fun h => ⟨hgas h, hgas' h⟩, fun h => ⟨hheat h, hheat' h⟩⟩
    intro heq
    exact hw.joined.irreflexive heat _ neighbor hneighbor (congrArg UInt32.toNat heq)

/-- **The packed topology of every reachable world is well formed**, whatever batches and stages
ran before and whether or not they were rejected part-way. -/
theorem topology_wellFormed {w : DogmosWorld F} (h : Reachable (D := D) w) :
    WellFormedTopology w :=
  (wired_of_reachable h).wellFormedTopology

/-- Two turfs that were joined by a batch whose second mutation is rejected. -/
def joinedTurfs : DogmosWorld F32 :=
  System.run (step (D := F64)) (newWithCapacities 0 0 100000 10 10)
    [.applyLifecycle [⟨.register, ⟨0, 1⟩⟩, ⟨.register, ⟨1, 1⟩⟩],
      .applyTurfLifecycle [.register ⟨0, 1⟩ (some ⟨0, 1⟩), .register ⟨1, 1⟩ (some ⟨1, 1⟩)],
      .applyTurfAdjacency [⟨⟨0, 1⟩, ⟨1, 1⟩, true⟩, ⟨⟨0, 1⟩, ⟨0, 1⟩, true⟩]]

theorem topology_wellFormed_joinedTurfs :
    joinedTurfs.topology.gasEdges = 1 ∧ WellFormedTopology joinedTurfs :=
  ⟨by decide +kernel, topology_wellFormed (D := F64) (System.reachable_run ⟨0, 0, _, _, _, rfl⟩ _)⟩

end Runs

end DogmosWorld

end Dogmos
