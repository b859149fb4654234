import Dogmos.Lib.SetIndex
import Dogmos.Runs.Live

/-!
# Who is linked to a mixture

A world keeps two indexes beside its records: the turfs that are linked to a
mixture, by its handle, and the edges that touch a mixture, by its slot.  Here is
what each batch does to them and to what they index:

* `OwnsTurfs.commitTurfLifecycle` — turfs are registered, linked and unregistered;
* `OwnsTurfs.commitLifecycle` — exactly the links to unregistered mixtures go;
* `OwnsEdges.commitLifecycle` — the edges of every mixture that becomes stale go;
* `keeps_ownsEdges_applyAdjacency` — mixture edges come and go, also in batches that
  stop half-way.
-/

namespace Dogmos

namespace DogmosWorld

open Exec SetIndex

variable {F D : Type} {w w' : DogmosWorld F}

/-! ## Links -/

/-- The mixture the registered turf of a slot is linked to. -/
def linkOf (w : DogmosWorld F) (slot : UInt32) : Option MixtureHandle :=
  (w.turfGeneration slot).bind fun _ => (w.turfAt slot.toNat).bind TurfRecord.mixture

theorem linkOf_eq_some {slot : UInt32} {mixture : MixtureHandle} :
    w.linkOf slot = some mixture ↔
      ∃ generation turf, w.requireTurfHandle ⟨slot, generation⟩ = .ok turf ∧
        turf.mixture = some mixture := by
  unfold linkOf
  rcases hgeneration : w.turfGeneration slot with _ | generation
  · refine ⟨fun h => (by cases h), ?_⟩
    rintro ⟨generation, turf, hturf, -⟩
    have hfound := (requireTurfHandle_eq_ok.1 hturf).1
    rw [hgeneration] at hfound
    cases hfound
  · rw [Option.bind_some, Option.bind_eq_some_iff]
    constructor
    · rintro ⟨turf, hat, hmixture⟩
      exact ⟨generation, turf, requireTurfHandle_eq_ok.2 ⟨hgeneration, hat⟩, hmixture⟩
    · rintro ⟨generation', turf, hturf, hmixture⟩
      exact ⟨turf, (requireTurfHandle_eq_ok.1 hturf).2, hmixture⟩

theorem linkOf_eq_some_shape {slot : UInt32} {mixture : MixtureHandle} :
    w.linkOf slot = some mixture ↔
      ∃ generation heat, w.turfShape ⟨slot, generation⟩ = some (some mixture, heat) := by
  rw [linkOf_eq_some]
  constructor
  · rintro ⟨generation, turf, hturf, hmixture⟩
    refine ⟨generation, turf.heat.isSome, turfShape_eq_some.2 ⟨turf, hturf, ?_⟩⟩
    unfold TurfRecord.shape
    rw [hmixture]
  · rintro ⟨generation, heat, hshape⟩
    obtain ⟨turf, hturf, heq⟩ := turfShape_eq_some.1 hshape
    exact ⟨generation, turf, hturf, (Prod.mk.inj heq).1⟩

/-- Worlds with the same shapes have the same links. -/
theorem linkOf_of_turfShape (h : w'.turfShape = w.turfShape) (slot : UInt32) :
    w'.linkOf slot = w.linkOf slot := by
  ext mixture
  rw [linkOf_eq_some_shape, linkOf_eq_some_shape, h]

/-- Worlds with the same turf slots have the same links. -/
theorem linkOf_of_turfs (hturfs : w'.turfs = w.turfs)
    (hvisible : ∀ id, w'.publications.visible id = w.publications.visible id) (slot : UInt32) :
    w'.linkOf slot = w.linkOf slot := by
  unfold linkOf turfGeneration turfAt
  rw [hturfs]
  rcases w.turfs[slot.toNat]? with _ | entry
  · rfl
  · dsimp only [Option.bind_some]
    rw [entry.turf.asRef_congr _ hvisible]

theorem linkOf_writeTurf (w : DogmosWorld F) (written : Nat) {f : TurfRecord F → TurfRecord F}
    (hf : ∀ turf, (f turf).mixture = turf.mixture) (slot : UInt32) :
    (w.writeTurf written f).linkOf slot = w.linkOf slot := by
  unfold linkOf
  rw [turfGeneration_writeTurf, turfAt_writeTurf]
  congr 1
  funext _
  split
  · rw [Option.bind_map]
    congr 1
    funext turf
    exact hf turf
  · rfl

/-- What a slot without a record of its own in a list of updates is linked to. -/
theorem linkOf_putTurf_of_ne (w : DogmosWorld F) {put slot : UInt32} (f : TurfSlot F → TurfSlot F)
    (h : slot ≠ put) : (w.putTurf put f).linkOf slot = w.linkOf slot := by
  unfold linkOf
  rw [turfGeneration_putTurf_of_ne w put f h,
    turfAt_putTurf_of_ne w put f fun heq => h (UInt32.toNat_inj.1 heq)]

theorem linkOf_putTurf_self (w : DogmosWorld F) {slot : UInt32} (f : TurfSlot F → TurfSlot F)
    (hslot : slot.toNat < w.turfs.length) (generation : Option UInt32)
    (record : Option (TurfRecord F))
    (hf : ∀ entry, f entry = { generation, turf := .new record } ∨
      f entry = { entry with turf := .new record } ∧ generation = none ∧ record = none) :
    (w.putTurf slot f).linkOf slot =
      generation.bind fun _ => record.bind TurfRecord.mixture := by
  have hentry := turfs_putTurf_self w slot f
  rw [List.getElem?_eq_getElem hslot, Option.map_some] at hentry
  unfold linkOf turfGeneration turfAt
  rw [hentry]
  rcases hf w.turfs[slot.toNat] with heq | ⟨heq, rfl, rfl⟩
  · rw [heq]
    rfl
  · rw [heq]
    dsimp only [Option.bind_some]
    rcases w.turfs[slot.toNat].generation with _ | _ <;> rfl

/-- The turf index is exact: every mixture has the slots of the turfs linked to it, and no mixture
without such turfs has an entry. -/
structure OwnsTurfs (w : DogmosWorld F) : Prop where
  exact : ∀ mixture slot, Members w.mixtureTurfs mixture slot ↔ w.linkOf slot = some mixture
  tight : Tight w.mixtureTurfs

/-- The edge ends at the slot. -/
def Touches (key : EdgeKey) (slot : UInt32) : Prop := key.left = slot ∨ key.right = slot

/-- The edge index is exact: every slot has the edges that touch it. -/
structure OwnsEdges (w : DogmosWorld F) : Prop where
  exact : ∀ slot key, Members w.mixtureEdges slot key ↔ key ∈ w.edges ∧ Touches key slot
  tight : Tight w.mixtureEdges

theorem OwnsTurfs.of_same (h : w.OwnsTurfs) (hlinks : ∀ slot, w'.linkOf slot = w.linkOf slot)
    (hindex : w'.mixtureTurfs = w.mixtureTurfs) : w'.OwnsTurfs := by
  refine ⟨fun mixture slot => ?_, hindex ▸ h.tight⟩
  rw [hindex, hlinks]
  exact h.exact mixture slot

theorem OwnsEdges.of_same (h : w.OwnsEdges) (hedges : w'.edges = w.edges)
    (hindex : w'.mixtureEdges = w.mixtureEdges) : w'.OwnsEdges := by
  refine ⟨fun slot key => ?_, hindex ▸ h.tight⟩
  rw [hindex, hedges]
  exact h.exact slot key

/-! ## The turf index over turf batches -/

theorem mixtureTurfs_writeTurf (w : DogmosWorld F) (slot : Nat) (f : TurfRecord F → TurfRecord F) :
    (w.writeTurf slot f).mixtureTurfs = w.mixtureTurfs := by
  unfold writeTurf
  split <;> rfl

theorem invalidateContinuations_frame (w : DogmosWorld F) (p : ReactionContinuation F → Bool) :
    (w.invalidateContinuations p).turfs = w.turfs ∧
      (w.invalidateContinuations p).mixtureTurfs = w.mixtureTurfs ∧
      (w.invalidateContinuations p).publications = w.publications := by
  unfold invalidateContinuations
  generalize w.continuations.zipIdx = entries
  induction entries generalizing w with
  | nil => exact ⟨rfl, rfl, rfl⟩
  | cons entry rest ih =>
    rw [List.foldl_cons]
    obtain ⟨hturfs, hindex, hpublications⟩ := ih
      (if entry.1.continuation.any p then w.freeContinuation entry.2 entry.1.generation else w)
    rw [hturfs, hindex, hpublications]
    split <;> exact ⟨rfl, rfl, rfl⟩

/-- The second world has the links and the turf index of the first one. -/
structure KeepsLinks (w w' : DogmosWorld F) : Prop where
  links : ∀ slot, w'.linkOf slot = w.linkOf slot
  index : w'.mixtureTurfs = w.mixtureTurfs
  length : w'.turfs.length = w.turfs.length

namespace KeepsLinks

theorem refl (w : DogmosWorld F) : KeepsLinks w w := ⟨fun _ => rfl, rfl, rfl⟩

theorem trans {w'' : DogmosWorld F} (h : KeepsLinks w w') (h' : KeepsLinks w' w'') :
    KeepsLinks w w'' :=
  ⟨fun slot => (h'.links slot).trans (h.links slot), h'.index.trans h.index,
    h'.length.trans h.length⟩

theorem invalidate (w : DogmosWorld F) (p : ReactionContinuation F → Bool) :
    KeepsLinks w (w.invalidateContinuations p) := by
  obtain ⟨hturfs, hindex, hpublications⟩ := invalidateContinuations_frame w p
  refine ⟨linkOf_of_turfs hturfs fun id => ?_, hindex, by rw [hturfs]⟩
  rw [hpublications]

theorem writeTurf (w : DogmosWorld F) (slot : Nat) {f : TurfRecord F → TurfRecord F}
    (hf : ∀ turf, (f turf).mixture = turf.mixture) : KeepsLinks w (w.writeTurf slot f) :=
  ⟨linkOf_writeTurf w slot hf, mixtureTurfs_writeTurf w slot f, length_writeTurf ..⟩

theorem deactivate (w : DogmosWorld F) (slot : UInt32) :
    KeepsLinks w (w.deactivateTurfHeatSlot slot) := by
  unfold deactivateTurfHeatSlot
  split
  · exact refl w
  · next index _ =>
    have hremoved : KeepsLinks w { w with heatActive := swapRemove w.heatActive index.toNat } :=
      ⟨fun _ => rfl, rfl, rfl⟩
    refine trans ?_ (writeTurf _ _ fun _ => rfl)
    split
    · exact hremoved.trans (writeTurf _ _ fun _ => rfl)
    · exact hremoved

theorem topology (w : DogmosWorld F) (topology : PackedTopology) :
    KeepsLinks w { w with topology } := ⟨fun _ => rfl, rfl, rfl⟩

theorem removeGas (w : DogmosWorld F) (slot : UInt32) :
    KeepsLinks w (w.removeIncidentGasEdges slot) := by
  unfold removeIncidentGasEdges
  split <;> exact topology w _

theorem removeHeat (w : DogmosWorld F) (slot : UInt32) :
    KeepsLinks w (w.removeIncidentHeatEdges slot) := by
  unfold removeIncidentHeatEdges
  split <;> exact topology w _

theorem ite {c : Prop} [Decidable c] {v v' : DogmosWorld F} (h : c → KeepsLinks w v)
    (h' : ¬c → KeepsLinks w v') : KeepsLinks w (if c then v else v') := by
  split
  · exact h ‹_›
  · exact h' ‹_›

end KeepsLinks

/-- The turf index is exact for every turf but one, which it does not know. -/
structure OwnsOtherTurfs (w : DogmosWorld F) (slot : UInt32) : Prop where
  exact : ∀ mixture other, Members w.mixtureTurfs mixture other ↔
    other ≠ slot ∧ w.linkOf other = some mixture
  tight : Tight w.mixtureTurfs

theorem OwnsTurfs.unlink (h : w.OwnsTurfs) (slot : UInt32) :
    (w.unlinkTurfMixture slot).OwnsOtherTurfs slot ∧
      (w.unlinkTurfMixture slot).turfs.length = w.turfs.length := by
  have hlink : w.linkOf slot = none ∨
      w.linkOf slot = (w.turfAt slot.toNat).bind TurfRecord.mixture := by
    unfold linkOf
    rcases w.turfGeneration slot with _ | generation
    · exact .inl rfl
    · exact .inr rfl
  unfold unlinkTurfMixture
  split
  · next mixture hmixture =>
    rw [hmixture] at hlink
    refine ⟨⟨fun other member => ?_, tight_unlink h.tight⟩, rfl⟩
    show Members (SetIndex.unlink w.mixtureTurfs mixture slot) other member ↔
      member ≠ slot ∧ w.linkOf member = some other
    rw [members_unlink, h.exact]
    refine ⟨fun ⟨hmember, hnot⟩ => ⟨fun heq => ?_, hmember⟩, fun ⟨hne, hmember⟩ => ⟨hmember, ?_⟩⟩
    · subst heq
      rcases hlink with hnone | hsome
      · rw [hnone] at hmember
        cases hmember
      · rw [hsome] at hmember
        exact hnot ⟨(Option.some.inj hmember).symm, rfl⟩
    · exact fun hsame => hne hsame.2
  · next hmixture =>
    rw [hmixture, or_self] at hlink
    refine ⟨⟨fun other member => ?_, h.tight⟩, rfl⟩
    rw [h.exact]
    refine ⟨fun hmember => ⟨fun heq => ?_, hmember⟩, fun hmember => hmember.2⟩
    subst heq
    rw [hlink] at hmember
    cases hmember

theorem length_putTurf (w : DogmosWorld F) (slot : UInt32) (f : TurfSlot F → TurfSlot F) :
    (w.putTurf slot f).turfs.length = w.turfs.length := by
  unfold putTurf
  rw [List.length_modify]

/-- The turf the index does not know gets its link. -/
theorem OwnsOtherTurfs.link {slot : UInt32} (h : w.OwnsOtherTurfs slot)
    {mixture : Option MixtureHandle}
    (hlinks : ∀ other, w'.linkOf other = if other = slot then mixture else w.linkOf other)
    (hindex : w'.mixtureTurfs = (w.linkTurfMixture slot mixture).mixtureTurfs) : w'.OwnsTurfs := by
  unfold linkTurfMixture at hindex
  rcases mixture with _ | mixture
  · dsimp only at hindex
    refine ⟨fun found other => ?_, hindex ▸ h.tight⟩
    rw [hindex, h.exact, hlinks]
    by_cases hother : other = slot
    · simp [hother]
    · simp [hother]
  · dsimp only at hindex
    refine ⟨fun found other => ?_, hindex ▸ tight_link h.tight⟩
    rw [hindex, members_link, h.exact, hlinks]
    by_cases hother : other = slot
    · simp [hother, eq_comm]
    · simp [hother]

theorem KeepsLinks.linkTurf (w : DogmosWorld F) (slot : UInt32) (mixture : Option MixtureHandle) :
    (∀ other, (w.linkTurfMixture slot mixture).linkOf other = w.linkOf other) ∧
      (w.linkTurfMixture slot mixture).turfs.length = w.turfs.length := by
  unfold linkTurfMixture
  split <;> exact ⟨fun _ => rfl, rfl⟩

/-- Registering a turf writes its link, and nothing else that is about links. -/
theorem registerTurf_links (w : DogmosWorld F) (handle : TurfHandle)
    (mixture : Option MixtureHandle) (hslot : handle.slot.toNat < w.turfs.length) :
    (∀ other, (w.registerTurf handle mixture).linkOf other =
        if other = handle.slot then mixture else w.linkOf other) ∧
      (w.registerTurf handle mixture).mixtureTurfs =
        (w.linkTurfMixture handle.slot mixture).mixtureTurfs ∧
      (w.registerTurf handle mixture).turfs.length = w.turfs.length := by
  unfold DogmosWorld.registerTurf
  dsimp only
  set w₁ := if w.turfGeneration handle.slot ≠ some handle.generation ∨
      (w.turfAt handle.slot.toNat).all (fun turf => decide (turf.mixture ≠ mixture)) = true then
    w.invalidateContinuationsForTurfSlot handle.slot else w with hw₁
  have h₁ : KeepsLinks w w₁ := .ite (fun _ => .invalidate w _) fun _ => .refl w
  set w₂ := if w.turfGeneration handle.slot ≠ some handle.generation then
    (w₁.deactivateTurfHeatSlot handle.slot).removeIncidentTurfEdges handle.slot else w₁ with hw₂
  have h₂ : KeepsLinks w w₂ := h₁.trans (.ite
    (fun _ => (KeepsLinks.deactivate w₁ _).trans (.topology _ _)) fun _ => .refl w₁)
  set heat := (if w.turfGeneration handle.slot ≠ some handle.generation then none
    else w₂.turfAt handle.slot.toNat).bind TurfRecord.heat with hheat
  set index := (if w.turfGeneration handle.slot ≠ some handle.generation then none
    else w₂.turfAt handle.slot.toNat).bind TurfRecord.heatActiveIndex with hindex
  set put := w₂.putTurf handle.slot fun _ =>
    { generation := some handle.generation
      turf := .new (some { mixture, heat, heatActiveIndex := index }) } with hput
  have hself : put.linkOf handle.slot = mixture :=
    linkOf_putTurf_self w₂ _ (h₂.length ▸ hslot) (some handle.generation)
      (some { mixture, heat, heatActiveIndex := index }) fun _ => .inl rfl
  have hlinked : (put.linkTurfMixture handle.slot mixture).mixtureTurfs =
      (w.linkTurfMixture handle.slot mixture).mixtureTurfs := by
    have hsame : put.mixtureTurfs = w.mixtureTurfs := h₂.index
    unfold linkTurfMixture
    cases mixture with
    | none => exact hsame
    | some mixture =>
      show SetIndex.link put.mixtureTurfs _ _ = SetIndex.link w.mixtureTurfs _ _
      rw [hsame]
  obtain ⟨hlinks, hlength⟩ := KeepsLinks.linkTurf put handle.slot mixture
  generalize put.linkTurfMixture handle.slot mixture = linked at hlinks hlength hlinked ⊢
  have h₃ : KeepsLinks linked
      (if mixture.isNone = true then linked.removeIncidentGasEdges handle.slot else linked) :=
    .ite (fun _ => .removeGas _ _) fun _ => .refl _
  have h₄ := h₃.trans (.ite (c := heat.isNone = true)
    (fun _ => .removeHeat _ handle.slot) fun _ => .refl _)
  refine ⟨fun other => ?_, h₄.index.trans hlinked,
    h₄.length.trans (hlength.trans ((length_putTurf ..).trans h₂.length))⟩
  rw [h₄.links, hlinks]
  by_cases hother : other = handle.slot
  · rw [if_pos hother, hother, hself]
  · rw [if_neg hother, hput, linkOf_putTurf_of_ne w₂ _ hother, h₂.links]

/-- Unregistering a turf takes its link, and writes nothing else that is about links. -/
theorem unregisterTurf_links (w : DogmosWorld F) (handle : TurfHandle)
    (hslot : handle.slot.toNat < w.turfs.length) :
    (∀ other, (w.unregisterTurf handle).linkOf other =
        if other = handle.slot then none else w.linkOf other) ∧
      (w.unregisterTurf handle).mixtureTurfs = w.mixtureTurfs ∧
      (w.unregisterTurf handle).turfs.length = w.turfs.length := by
  have hkeeps : KeepsLinks w ((w.invalidateContinuationsForTurfSlot
      handle.slot).deactivateTurfHeatSlot handle.slot) :=
    (KeepsLinks.invalidate w _).trans (.deactivate _ _)
  unfold DogmosWorld.unregisterTurf
  dsimp only
  generalize (w.invalidateContinuationsForTurfSlot handle.slot).deactivateTurfHeatSlot handle.slot =
    idle at hkeeps ⊢
  have hself := linkOf_putTurf_self idle (fun entry => { entry with turf := .vacant })
    (hkeeps.length ▸ hslot) none none fun _ => .inr ⟨rfl, rfl, rfl⟩
  have hrest := (KeepsLinks.topology (idle.putTurf handle.slot fun entry =>
    { entry with turf := .vacant }) (idle.topology.removeSlot handle.slot)).trans
      (.removeHeat _ handle.slot)
  refine ⟨fun other => (hrest.links other).trans ?_, hrest.index.trans hkeeps.index,
    hrest.length.trans ((length_putTurf ..).trans hkeeps.length)⟩
  by_cases hother : other = handle.slot
  · rw [if_pos hother, hother, hself]
    rfl
  · rw [if_neg hother, linkOf_putTurf_of_ne idle _ hother, hkeeps.links]

theorem OwnsTurfs.applyTurfMutation (h : w.OwnsTurfs) (mutation : TurfLifecycleMutation)
    (hslot : (turfMutationTarget mutation).1.slot.toNat < w.turfs.length) :
    (w.applyTurfMutation mutation).OwnsTurfs ∧
      (∀ slot, (w.applyTurfMutation mutation).linkOf slot =
        if slot = (turfMutationTarget mutation).1.slot then (turfMutationTarget mutation).2
        else w.linkOf slot) ∧
      (w.applyTurfMutation mutation).turfs.length = w.turfs.length := by
  have hkeeps : ∀ slot other, (w.unlinkTurfMixture slot).linkOf other = w.linkOf other := by
    intro slot other
    unfold unlinkTurfMixture
    split <;> rfl
  cases mutation with
  | register handle mixture =>
    obtain ⟨hothers, hlength⟩ := h.unlink handle.slot
    obtain ⟨hlinks, hindex, hregistered⟩ :=
      registerTurf_links (w.unlinkTurfMixture handle.slot) handle mixture (hlength ▸ hslot)
    refine ⟨hothers.link hlinks hindex, fun slot => ?_, hregistered.trans hlength⟩
    exact (hlinks slot).trans (by rw [hkeeps]; rfl)
  | unregister handle =>
    obtain ⟨hothers, hlength⟩ := h.unlink handle.slot
    obtain ⟨hlinks, hindex, hunregistered⟩ :=
      unregisterTurf_links (w.unlinkTurfMixture handle.slot) handle (hlength ▸ hslot)
    refine ⟨hothers.link hlinks hindex, fun slot => ?_, hunregistered.trans hlength⟩
    exact (hlinks slot).trans (by rw [hkeeps]; rfl)

theorem linkOf_growTurfs (w : DogmosWorld F) (slots : List UInt32) (slot : UInt32) :
    linkOf { w with turfs := growSlots w.turfs slots { generation := none, turf := .vacant } } slot =
      w.linkOf slot := by
  have hgrown := getElem?_growSlots slots ({ generation := none, turf := .vacant } : TurfSlot F)
    slot.toNat w.turfs
  unfold linkOf turfGeneration turfAt
  dsimp only
  rcases hgrown with hsame | ⟨hnone, hvacant⟩
  · rw [hsame]
  · rw [hnone, hvacant]
    rfl

theorem lt_length_growSlots {α : Type} (vacant : α) {slots : List UInt32} {slot : UInt32}
    (h : slot ∈ slots) (table : List α) : slot.toNat < (growSlots table slots vacant).length := by
  have hgrow : ∀ (rest : List UInt32) (table : List α),
      table.length ≤ (growSlots table rest vacant).length := by
    intro rest
    induction rest with
    | nil => exact fun _ => Nat.le_refl _
    | cons other rest ih =>
      intro table
      refine Nat.le_trans ?_ (ih (growTo table other.toNat vacant))
      rw [length_growTo]
      exact Nat.le_max_left _ _
  induction slots generalizing table with
  | nil => cases h
  | cons other rest ih =>
    rcases List.mem_cons.1 h with rfl | hrest
    · refine Nat.lt_of_lt_of_le ?_ (hgrow rest (growTo table slot.toNat vacant))
      rw [length_growTo]
      omega
    · exact ih hrest _

/-- A batch on turfs keeps the index exact; a link it leaves is an old one or one that it makes. -/
theorem OwnsTurfs.commitTurfLifecycle (h : w.OwnsTurfs) (mutations : List TurfLifecycleMutation) :
    (w.commitTurfLifecycle mutations).OwnsTurfs ∧
      ∀ slot mixture, (w.commitTurfLifecycle mutations).linkOf slot = some mixture →
        w.linkOf slot = some mixture ∨
          ∃ mutation ∈ mutations, (turfMutationTarget mutation).2 = some mixture := by
  have hfold : ∀ (rest : List TurfLifecycleMutation) (v : DogmosWorld F), v.OwnsTurfs →
      (∀ mutation ∈ rest, (turfMutationTarget mutation).1.slot.toNat < v.turfs.length) →
      (rest.foldl DogmosWorld.applyTurfMutation v).OwnsTurfs ∧
        ∀ slot mixture, (rest.foldl DogmosWorld.applyTurfMutation v).linkOf slot = some mixture →
          v.linkOf slot = some mixture ∨
            ∃ mutation ∈ rest, (turfMutationTarget mutation).2 = some mixture := by
    intro rest
    induction rest with
    | nil => exact fun v hv _ => ⟨hv, fun _ _ hlink => .inl hlink⟩
    | cons mutation rest ih =>
      intro v hv hslots
      obtain ⟨howns, hlinks, hlength⟩ :=
        hv.applyTurfMutation mutation (hslots mutation List.mem_cons_self)
      obtain ⟨hrest, hfound⟩ := ih _ howns fun other hother =>
        hlength ▸ hslots other (List.mem_cons_of_mem _ hother)
      refine ⟨hrest, fun slot mixture hlink => ?_⟩
      rcases hfound slot mixture hlink with hold | ⟨other, hother, hmixture⟩
      · rw [hlinks] at hold
        split at hold
        · exact .inr ⟨mutation, List.mem_cons_self, hold⟩
        · exact .inl hold
      · exact .inr ⟨other, List.mem_cons_of_mem _ hother, hmixture⟩
  have hgrown := h.of_same (linkOf_growTurfs w (mutations.map fun mutation =>
    (turfMutationTarget mutation).1.slot)) rfl
  obtain ⟨howns, hlinks⟩ := hfold mutations _ hgrown fun mutation hmutation => by
    have hslot := List.mem_map_of_mem (f := fun mutation : TurfLifecycleMutation =>
      (turfMutationTarget mutation).1.slot) hmutation
    exact lt_length_growSlots _ hslot w.turfs
  refine ⟨howns, fun slot mixture hlink => ?_⟩
  rcases hlinks slot mixture hlink with hold | hnew
  · exact .inl ((linkOf_growTurfs ..).symm.trans hold)
  · exact .inr hnew

/-! ## Unregistering mixtures -/

theorem linkOf_detachTurf (w : DogmosWorld F) (slot other : UInt32) :
    (w.detachTurf slot).linkOf other = if other = slot then none else w.linkOf other := by
  show (w.writeTurf slot.toNat fun turf => { turf with mixture := none }).linkOf other = _
  unfold linkOf
  rw [turfGeneration_writeTurf, turfAt_writeTurf]
  by_cases hother : other = slot
  · rw [if_pos (congrArg UInt32.toNat hother), if_pos hother]
    rcases w.turfGeneration other with _ | _
    · rfl
    · rcases w.turfAt other.toNat with _ | _ <;> rfl
  · rw [if_neg fun heq => hother (UInt32.toNat_inj.1 heq), if_neg hother]

theorem foldl_detachTurf (slots : List UInt32) (w : DogmosWorld F) :
    (slots.foldl detachTurf w).mixtureTurfs = w.mixtureTurfs ∧
      ∀ other, (slots.foldl detachTurf w).linkOf other =
        if other ∈ slots then none else w.linkOf other := by
  induction slots generalizing w with
  | nil => exact ⟨rfl, fun other => (if_neg List.not_mem_nil).symm⟩
  | cons slot rest ih =>
    obtain ⟨hindex, hlinks⟩ := ih (w.detachTurf slot)
    refine ⟨hindex.trans (mixtureTurfs_writeTurf w _ _), fun other => ?_⟩
    rw [List.foldl_cons, hlinks, linkOf_detachTurf]
    by_cases hother : other = slot
    · simp [hother]
    · simp [hother]

/-- Detaching a mixture takes exactly the links to it. -/
theorem OwnsTurfs.detachMixture (h : w.OwnsTurfs) (mixture : MixtureHandle) :
    (w.detachMixture mixture).OwnsTurfs ∧
      ∀ slot other, (w.detachMixture mixture).linkOf slot = some other ↔
        w.linkOf slot = some other ∧ other ≠ mixture := by
  unfold DogmosWorld.detachMixture
  rcases hturfs : w.mixtureTurfs[mixture]? with _ | turfs
  · refine ⟨h, fun slot other => ⟨fun hlink => ⟨hlink, ?_⟩, fun hlink => hlink.1⟩⟩
    rintro rfl
    exact not_members_of_none hturfs ((h.exact other slot).2 hlink)
  · dsimp only
    obtain ⟨hindex, hlinks⟩ := foldl_detachTurf turfs.toList
      { w with mixtureTurfs := w.mixtureTurfs.erase mixture }
    have hmem : ∀ slot, slot ∈ turfs.toList ↔ w.linkOf slot = some mixture := by
      intro slot
      rw [Std.TreeSet.mem_toList, ← h.exact, members_iff_of_getElem? hturfs]
    have hlinked : ∀ slot other, (turfs.toList.foldl detachTurf
        { w with mixtureTurfs := w.mixtureTurfs.erase mixture }).linkOf slot = some other ↔
          w.linkOf slot = some other ∧ other ≠ mixture := by
      intro slot other
      rw [hlinks, ite_eq_iff, hmem]
      constructor
      · rintro (⟨-, hnone⟩ | ⟨hnot, hlink⟩)
        · cases hnone
        · refine ⟨hlink, ?_⟩
          rintro rfl
          exact hnot hlink
      · rintro ⟨hlink, hne⟩
        refine .inr ⟨fun hsame => hne ?_, hlink⟩
        rw [hlink] at hsame
        exact Option.some.inj hsame
    refine ⟨⟨fun other slot => ?_, ?_⟩, hlinked⟩
    · rw [hindex, members_erase, h.exact, hlinked, and_comm]
    · rw [hindex]
      exact tight_erase h.tight

theorem OwnsTurfs.foldl_detachMixture (mixtures : List MixtureHandle) {w : DogmosWorld F}
    (h : w.OwnsTurfs) :
    (mixtures.foldl DogmosWorld.detachMixture w).OwnsTurfs ∧
      ∀ slot other, (mixtures.foldl DogmosWorld.detachMixture w).linkOf slot = some other ↔
        w.linkOf slot = some other ∧ other ∉ mixtures := by
  induction mixtures generalizing w with
  | nil => exact ⟨h, fun slot other => by simp⟩
  | cons mixture rest ih =>
    obtain ⟨howns, hlinks⟩ := h.detachMixture mixture
    obtain ⟨hrest, hfound⟩ := ih howns
    refine ⟨hrest, fun slot other => (hfound slot other).trans ?_⟩
    rw [hlinks, List.mem_cons, not_or, and_assoc]

/-! ## The edge index -/

/-- The edge index is exact for the slots it knows. -/
structure OwnsEdgesOf (w : DogmosWorld F) (known : UInt32 → Prop) : Prop where
  exact : ∀ slot key, Members w.mixtureEdges slot key ↔
    known slot ∧ key ∈ w.edges ∧ Touches key slot
  tight : Tight w.mixtureEdges

theorem OwnsEdges.known (h : w.OwnsEdges) : w.OwnsEdgesOf fun _ => True :=
  ⟨fun slot key => by rw [h.exact, true_and], h.tight⟩

theorem OwnsEdgesOf.owns {known : UInt32 → Prop} (h : w.OwnsEdgesOf known)
    (hknown : ∀ slot key, key ∈ w.edges → Touches key slot → known slot) : w.OwnsEdges := by
  refine ⟨fun slot key => (h.exact slot key).trans ?_, h.tight⟩
  exact ⟨fun hmember => hmember.2, fun hedge => ⟨hknown slot key hedge.1 hedge.2, hedge⟩⟩

/-- An edge that goes leaves the index at both ends. -/
theorem OwnsEdgesOf.erase {known : UInt32 → Prop} (h : w.OwnsEdgesOf known) (key : EdgeKey) :
    ({ w with edges := w.edges.erase key }.unlinkMixtureEdge key).OwnsEdgesOf known := by
  refine ⟨fun slot other => ?_, tight_unlink (tight_unlink h.tight)⟩
  show Members (SetIndex.unlink (SetIndex.unlink w.mixtureEdges key.left key) key.right key)
    slot other ↔ known slot ∧ other ∈ w.edges.erase key ∧ Touches other slot
  rw [members_unlink, members_unlink, h.exact, Std.TreeMap.mem_erase, ne_eq,
    Std.LawfulEqCmp.compare_eq_iff_eq]
  constructor
  · rintro ⟨⟨⟨hknown, hedge, htouches⟩, hleft⟩, hright⟩
    refine ⟨hknown, ⟨?_, hedge⟩, htouches⟩
    rintro rfl
    rcases htouches with heq | heq
    · exact hleft ⟨heq.symm, rfl⟩
    · exact hright ⟨heq.symm, rfl⟩
  · rintro ⟨hknown, ⟨hne, hedge⟩, htouches⟩
    refine ⟨⟨⟨hknown, hedge, htouches⟩, ?_⟩, ?_⟩
    · exact fun hsame => hne hsame.2.symm
    · exact fun hsame => hne hsame.2.symm

/-- The edges of a slot go, and no others. -/
theorem OwnsEdges.removeIncident (h : w.OwnsEdges) (slot : UInt32) :
    (w.removeIncidentMixtureEdges slot).OwnsEdges ∧
      ∀ key, key ∈ (w.removeIncidentMixtureEdges slot).edges ↔
        key ∈ w.edges ∧ ¬Touches key slot := by
  have hfold : ∀ (rest : List EdgeKey) (known : UInt32 → Prop) (v : DogmosWorld F),
      v.OwnsEdgesOf known →
      (rest.foldl (fun v key => { v with edges := v.edges.erase key }.unlinkMixtureEdge key)
          v).OwnsEdgesOf known ∧
        ∀ key, key ∈ (rest.foldl (fun v key =>
          { v with edges := v.edges.erase key }.unlinkMixtureEdge key) v).edges ↔
            key ∈ v.edges ∧ key ∉ rest := by
    intro rest known
    induction rest with
    | nil => exact fun v hv => ⟨hv, fun key => by simp⟩
    | cons gone rest ih =>
      intro v hv
      obtain ⟨hrest, hedges⟩ := ih _ (hv.erase gone)
      refine ⟨hrest, fun key => (hedges key).trans ?_⟩
      show key ∈ v.edges.erase gone ∧ key ∉ rest ↔ _
      rw [Std.TreeMap.mem_erase, ne_eq, Std.LawfulEqCmp.compare_eq_iff_eq, List.mem_cons, not_or]
      exact ⟨fun hkey => ⟨hkey.1.2, fun heq => hkey.1.1 heq.symm, hkey.2⟩,
        fun hkey => ⟨⟨fun heq => hkey.2.1 heq.symm, hkey.1⟩, hkey.2.2⟩⟩
  unfold removeIncidentMixtureEdges
  rcases hedges : w.mixtureEdges[slot]? with _ | edges
  · refine ⟨h, fun key => ⟨fun hedge => ⟨hedge, fun htouches => ?_⟩, fun hedge => hedge.1⟩⟩
    exact not_members_of_none hedges ((h.exact slot key).2 ⟨hedge, htouches⟩)
  · dsimp only
    have herased : OwnsEdgesOf { w with mixtureEdges := w.mixtureEdges.erase slot }
        fun other => other ≠ slot := by
      refine ⟨fun other key => ?_, tight_erase h.tight⟩
      show Members (w.mixtureEdges.erase slot) other key ↔ _
      rw [members_erase, h.exact]
    obtain ⟨howns, hkept⟩ := hfold edges.toList _ _ herased
    have hgone : ∀ key, key ∈ w.edges ∧ key ∉ edges.toList ↔ key ∈ w.edges ∧ ¬Touches key slot := by
      intro key
      rw [Std.TreeSet.mem_toList, ← members_iff_of_getElem? hedges, h.exact]
      exact ⟨fun hkey => ⟨hkey.1, fun htouches => hkey.2 ⟨hkey.1, htouches⟩⟩,
        fun hkey => ⟨hkey.1, fun hmember => hkey.2 hmember.2⟩⟩
    refine ⟨howns.owns fun other key hedge htouches heq => ?_, fun key =>
      (hkept key).trans (hgone key)⟩
    subst heq
    exact ((hgone key).1 ((hkept key).1 hedge)).2 htouches

theorem OwnsEdges.foldl_removeIncident (slots : List UInt32) {w : DogmosWorld F}
    (h : w.OwnsEdges) :
    (slots.foldl removeIncidentMixtureEdges w).OwnsEdges ∧
      ∀ key, key ∈ (slots.foldl removeIncidentMixtureEdges w).edges ↔
        key ∈ w.edges ∧ ∀ slot ∈ slots, ¬Touches key slot := by
  induction slots generalizing w with
  | nil => exact ⟨h, fun key => by simp⟩
  | cons slot rest ih =>
    obtain ⟨howns, hedges⟩ := h.removeIncident slot
    obtain ⟨hrest, hkept⟩ := ih howns
    refine ⟨hrest, fun key => (hkept key).trans ?_⟩
    rw [hedges, List.forall_mem_cons, and_assoc]

/-- An edge that comes enters the index at both ends. -/
theorem OwnsEdges.insert (h : w.OwnsEdges) (key : EdgeKey) (conductivity : F) :
    OwnsEdges { w with
      edges := w.edges.insert key conductivity
      mixtureEdges :=
        SetIndex.link (SetIndex.link w.mixtureEdges key.left key) key.right key } := by
  refine ⟨fun slot other => ?_, tight_link (tight_link h.tight)⟩
  show Members (SetIndex.link (SetIndex.link w.mixtureEdges key.left key) key.right key) slot
    other ↔ other ∈ w.edges.insert key conductivity ∧ Touches other slot
  rw [members_link, members_link, h.exact, Std.TreeMap.mem_insert,
    Std.LawfulEqCmp.compare_eq_iff_eq]
  constructor
  · rintro (⟨rfl, rfl⟩ | ⟨rfl, rfl⟩ | ⟨hedge, htouches⟩)
    · exact ⟨.inl rfl, .inr rfl⟩
    · exact ⟨.inl rfl, .inl rfl⟩
    · exact ⟨.inr hedge, htouches⟩
  · rintro ⟨rfl | hedge, htouches⟩
    · rcases htouches with rfl | rfl
      · exact .inr (.inl ⟨rfl, rfl⟩)
      · exact .inl ⟨rfl, rfl⟩
    · exact .inr (.inr ⟨hedge, htouches⟩)

/-- An edge that is there already may get another conductivity. -/
theorem OwnsEdges.update (h : w.OwnsEdges) {key : EdgeKey} (hkey : key ∈ w.edges)
    (conductivity : F) : OwnsEdges { w with edges := w.edges.insert key conductivity } := by
  refine ⟨fun slot other => (h.exact slot other).trans (and_congr_left fun _ => ?_), h.tight⟩
  show other ∈ w.edges ↔ other ∈ w.edges.insert key conductivity
  rw [Std.TreeMap.mem_insert, Std.LawfulEqCmp.compare_eq_iff_eq]
  refine ⟨.inr, ?_⟩
  rintro (rfl | hedge)
  · exact hkey
  · exact hedge

theorem keeps_ownsEdges_applyAdjacency [FloatFormat F] (mutations : List (AdjacencyMutation F)) :
    Keeps OwnsEdges (applyAdjacency mutations) := by
  have hmutation : ∀ mutation : AdjacencyMutation F,
      Keeps OwnsEdges (applyAdjacencyMutation mutation) := by
    intro mutation
    unfold applyAdjacencyMutation
    refine keeps_check_bind fun _ => keeps_check_bind fun _ => ?_
    refine keeps_ite (fun _ => keeps_throw _) fun _ => keeps_check_bind fun key => ?_
    refine keeps_get_bind_at fun w hw => ?_
    by_cases hzero : (mutation.conductivity == 0.0) = true
    · rw [if_pos hzero]
      by_cases hkey : w.edges.contains key = true
      · rw [if_pos hkey, run_bind, run_modify]
        exact (hw.known.erase key).owns fun _ _ _ _ => trivial
      · rw [if_neg hkey]
        exact hw
    · rw [if_neg hzero, run_bind, run_modify]
      dsimp only
      by_cases hsame : (w.edges[key]?.any fun previous => previous == mutation.conductivity) = true
      · rw [if_pos hsame]
        -- the edge is there already, so the index has it
        refine hw.update ?_ mutation.conductivity
        rcases hprevious : w.edges[key]? with _ | previous
        · rw [hprevious] at hsame
          cases hsame
        · exact Std.TreeMap.mem_iff_isSome_getElem?.2 (by rw [hprevious]; rfl)
      · rw [if_neg hsame, run_bind, run_modify]
        exact hw.insert key mutation.conductivity
  unfold applyAdjacency
  refine keeps_bind ?_ fun changed => ?_
  · refine keeps_foldlM (fun changed mutation _ => ?_) false
    exact keeps_bind (hmutation mutation) fun _ => keeps_pure _
  · refine keeps_ite (fun _ => ?_) fun _ => keeps_pure _
    exact keeps_check_bind fun _ => keeps_pure _

/-! ## Batches that register mixtures -/

section Lifecycle

variable [FloatFormat F]

/-- A mutation changes no link and no edge. -/
theorem applyMutation_frame (progress : DogmosWorld F × Std.TreeSet UInt32)
    (mutation : LifecycleMutation) :
    KeepsLinks progress.1 (applyMutation progress mutation).1 ∧
      (applyMutation progress mutation).1.edges = progress.1.edges ∧
      (applyMutation progress mutation).1.mixtureEdges = progress.1.mixtureEdges := by
  obtain ⟨w, invalidated⟩ := progress
  have hinvalidated : ∀ slot (f : MixtureSlot F → MixtureSlot F),
      KeepsLinks w ((w.invalidateContinuationsForMixtureSlot slot).putMixture slot f) ∧
        ((w.invalidateContinuationsForMixtureSlot slot).putMixture slot f).edges = w.edges ∧
        ((w.invalidateContinuationsForMixtureSlot slot).putMixture slot f).mixtureEdges =
          w.mixtureEdges := by
    intro slot f
    have hkeeps : KeepsLinks w (w.invalidateContinuationsForMixtureSlot slot) := .invalidate w _
    have hedges : (w.invalidateContinuationsForMixtureSlot slot).edges = w.edges ∧
        (w.invalidateContinuationsForMixtureSlot slot).mixtureEdges = w.mixtureEdges :=
      invalidateContinuations_induct
        (I := fun v => v.edges = w.edges ∧ v.mixtureEdges = w.mixtureEdges)
        (fun _ _ _ _ hv _ => hv) w _ ⟨rfl, rfl⟩
    exact ⟨⟨hkeeps.links, hkeeps.index, hkeeps.length⟩, hedges⟩
  unfold DogmosWorld.applyMutation
  dsimp only
  split
  · split
    · exact hinvalidated _ _
    · exact ⟨.refl w, rfl, rfl⟩
  · exact hinvalidated _ _

omit [FloatFormat F] in
/-- A slot that is written names what it named for other slots. -/
theorem live_invalidate_putMixture {mixture : MixtureHandle} {slot : UInt32}
    (f : MixtureSlot F → MixtureSlot F) (h : mixture.slot ≠ slot) :
    ((w.invalidateContinuationsForMixtureSlot slot).putMixture slot f).Live mixture ↔
      w.Live mixture := by
  have hsame : (w.invalidateContinuationsForMixtureSlot slot).mixtures = w.mixtures ∧
      (w.invalidateContinuationsForMixtureSlot slot).publications = w.publications :=
    invalidateContinuations_induct
      (I := fun v => v.mixtures = w.mixtures ∧ v.publications = w.publications)
      (fun _ _ _ _ hv _ => hv) w _ ⟨rfl, rfl⟩
  refine (live_putMixture_of_ne slot f h).trans ?_
  exact ⟨KeepsLive.of_same hsame.1.symm hsame.2.symm _, KeepsLive.of_same hsame.1 hsame.2 _⟩

/-- A slot that a batch does not invalidate keeps what it names. -/
theorem live_applyMutation {progress : DogmosWorld F × Std.TreeSet UInt32}
    {mutation : LifecycleMutation} {mixture : MixtureHandle}
    (h : mixture.slot ∉ (applyMutation progress mutation).2) :
    mixture.slot ∉ progress.2 ∧
      ((applyMutation progress mutation).1.Live mixture ↔ progress.1.Live mixture) := by
  obtain ⟨w, invalidated⟩ := progress
  have hinvalidated : ∀ slot (f : MixtureSlot F → MixtureSlot F),
      mixture.slot ∉ invalidated.insert slot → mixture.slot ∉ invalidated ∧
        (((w.invalidateContinuationsForMixtureSlot slot).putMixture slot f).Live mixture ↔
          w.Live mixture) := by
    intro slot f hslot
    rw [Std.TreeSet.mem_insert, Std.LawfulEqCmp.compare_eq_iff_eq, not_or] at hslot
    exact ⟨hslot.2, live_invalidate_putMixture f fun heq => hslot.1 heq.symm⟩
  revert h
  unfold DogmosWorld.applyMutation
  dsimp only
  split
  · split
    · exact hinvalidated _ _
    · exact fun h => ⟨h, Iff.rfl⟩
  · exact hinvalidated _ _

/-- What the mutations of a batch do before its edges and links go. -/
theorem foldl_applyMutation (mutations : List LifecycleMutation)
    (progress : DogmosWorld F × Std.TreeSet UInt32) :
    (KeepsLinks progress.1 (mutations.foldl applyMutation progress).1 ∧
      (mutations.foldl applyMutation progress).1.edges = progress.1.edges ∧
      (mutations.foldl applyMutation progress).1.mixtureEdges = progress.1.mixtureEdges) ∧
      ∀ mixture : MixtureHandle, mixture.slot ∉ (mutations.foldl applyMutation progress).2 →
        mixture.slot ∉ progress.2 ∧
          ((mutations.foldl applyMutation progress).1.Live mixture ↔ progress.1.Live mixture) := by
  induction mutations generalizing progress with
  | nil => exact ⟨⟨.refl _, rfl, rfl⟩, fun mixture hmixture => ⟨hmixture, Iff.rfl⟩⟩
  | cons mutation rest ih =>
    obtain ⟨⟨hlinks, hedges, hindex⟩, hlive⟩ := ih (applyMutation progress mutation)
    obtain ⟨hlinks', hedges', hindex'⟩ := applyMutation_frame progress mutation
    refine ⟨⟨hlinks'.trans hlinks, hedges.trans hedges', hindex.trans hindex'⟩, ?_⟩
    intro mixture hmixture
    obtain ⟨hnot, hrest⟩ := hlive mixture hmixture
    obtain ⟨hstart, hfirst⟩ := live_applyMutation hnot
    exact ⟨hstart, hrest.trans hfirst⟩

/-- No edge touches the slot of the mixture. -/
def Unconnected (w : DogmosWorld F) (mixture : MixtureHandle) : Prop :=
  (∀ key, key ∈ w.edges → ¬Touches key mixture.slot) ∧ w.mixtureEdges[mixture.slot]? = none

/-- No turf is linked to the mixture. -/
def Unlinked (w : DogmosWorld F) (mixture : MixtureHandle) : Prop :=
  (∀ slot, w.linkOf slot ≠ some mixture) ∧ w.mixtureTurfs[mixture]? = none

omit [FloatFormat F] in
theorem OwnsEdges.unconnected (h : w.OwnsEdges) {mixture : MixtureHandle}
    (hedges : ∀ key, key ∈ w.edges → ¬Touches key mixture.slot) : w.Unconnected mixture := by
  refine ⟨hedges, ?_⟩
  rcases hindex : w.mixtureEdges[mixture.slot]? with _ | members
  · rfl
  · obtain ⟨key, hkey⟩ := h.tight.exists_members hindex
    obtain ⟨hedge, htouches⟩ := (h.exact mixture.slot key).1 hkey
    exact absurd htouches (hedges key hedge)

omit [FloatFormat F] in
theorem OwnsTurfs.unlinked (h : w.OwnsTurfs) {mixture : MixtureHandle}
    (hlinks : ∀ slot, w.linkOf slot ≠ some mixture) : w.Unlinked mixture := by
  refine ⟨hlinks, ?_⟩
  rcases hindex : w.mixtureTurfs[mixture]? with _ | members
  · rfl
  · obtain ⟨slot, hslot⟩ := h.tight.exists_members hindex
    exact absurd ((h.exact mixture slot).1 hslot) (hlinks slot)

theorem mem_unregistering {mutations : List LifecycleMutation} {mixture : MixtureHandle} :
    mixture ∈ (unregistering mutations).toList ↔
      { action := .unregister, handle := mixture } ∈ mutations := by
  have hfold : ∀ (rest : List LifecycleMutation) (handles : Std.TreeSet MixtureHandle),
      mixture ∈ rest.foldl (fun handles mutation => handles.insert mutation.handle) handles ↔
        mixture ∈ handles ∨ ∃ mutation ∈ rest, mutation.handle = mixture := by
    intro rest
    induction rest with
    | nil => exact fun handles => by simp
    | cons mutation rest ih =>
      intro handles
      rw [List.foldl_cons, ih, Std.TreeSet.mem_insert, Std.LawfulEqCmp.compare_eq_iff_eq,
        List.exists_mem_cons_iff]
      tauto
  rw [Std.TreeSet.mem_toList]
  unfold unregistering
  rw [hfold]
  constructor
  · rintro (hempty | ⟨⟨action, handle⟩, hmutation, rfl⟩)
    · exact absurd hempty Std.TreeSet.not_mem_emptyc
    · obtain ⟨hmem, haction⟩ := List.mem_filter.1 hmutation
      cases of_decide_eq_true haction
      exact hmem
  · exact fun hmem => .inr ⟨_, List.mem_filter.2 ⟨hmem, decide_eq_true rfl⟩, rfl⟩

/-- A batch takes exactly the links to the mixtures it unregisters. -/
theorem OwnsTurfs.commitLifecycle (h : w.OwnsTurfs) (mutations : List LifecycleMutation) :
    (w.commitLifecycle mutations).OwnsTurfs ∧
      ∀ slot mixture, (w.commitLifecycle mutations).linkOf slot = some mixture ↔
        w.linkOf slot = some mixture ∧
          { action := .unregister, handle := mixture } ∉ mutations := by
  unfold DogmosWorld.commitLifecycle
  dsimp only
  obtain ⟨⟨hlinks, -, -⟩, -⟩ := foldl_applyMutation mutations ({ w with
    mixtures := growSlots w.mixtures (mutations.map fun mutation => mutation.handle.slot)
      { generation := none, mixture := .vacant } }, ∅)
  generalize mutations.foldl (applyMutation (F := F)) _ = applied at hlinks
  have hindex : (applied.2.toList.foldl removeIncidentMixtureEdges applied.1).mixtureTurfs =
      applied.1.mixtureTurfs := by
    refine foldl_invariant (I := fun u => u.mixtureTurfs = applied.1.mixtureTurfs)
      (fun u slot hu => ?_) _ rfl
    unfold removeIncidentMixtureEdges
    split
    · exact hu
    · refine foldl_invariant (I := fun t => t.mixtureTurfs = applied.1.mixtureTurfs) ?_ _ hu
      exact fun _ _ ht => ht
  obtain ⟨-, hpublications, hground⟩ := removeIncidentMixtureEdges_frame applied.1 applied.2.toList
  have hsame := linkOf_of_turfs hground.turfs fun id => by rw [hpublications]
  have hbefore : ∀ slot, (applied.2.toList.foldl removeIncidentMixtureEdges applied.1).linkOf slot =
      w.linkOf slot := fun slot => (hsame slot).trans (hlinks.links slot)
  obtain ⟨howns, hleft⟩ := (h.of_same hbefore (hindex.trans hlinks.index)).foldl_detachMixture
    (unregistering mutations).toList
  refine ⟨howns, fun slot mixture => (hleft slot mixture).trans ?_⟩
  rw [hbefore, mem_unregistering]

/-- A batch leaves no edge of a mixture it makes stale. -/
theorem OwnsEdges.commitLifecycle (h : w.OwnsEdges) (mutations : List LifecycleMutation) :
    (w.commitLifecycle mutations).OwnsEdges ∧
      ∀ mixture, w.Live mixture → ¬(w.commitLifecycle mutations).Live mixture →
        (w.commitLifecycle mutations).Unconnected mixture := by
  unfold DogmosWorld.commitLifecycle
  dsimp only
  have hgrown := KeepsLive.growMixtures w (mutations.map fun mutation => mutation.handle.slot)
  obtain ⟨⟨-, hedges, hindex⟩, hlive⟩ := foldl_applyMutation mutations ({ w with
    mixtures := growSlots w.mixtures (mutations.map fun mutation => mutation.handle.slot)
      { generation := none, mixture := .vacant } }, ∅)
  generalize mutations.foldl (applyMutation (F := F)) _ = applied at hedges hindex hlive
  obtain ⟨howns, hkept⟩ := (h.of_same hedges hindex).foldl_removeIncident applied.2.toList
  have hframe := removeIncidentMixtureEdges_frame applied.1 applied.2.toList
  generalize applied.2.toList.foldl removeIncidentMixtureEdges applied.1 = cut at howns hkept hframe
  have hdetached : ∀ (mixtures : List MixtureHandle) (v : DogmosWorld F),
      (mixtures.foldl detachMixture v).edges = v.edges ∧
        (mixtures.foldl detachMixture v).mixtureEdges = v.mixtureEdges := by
    intro mixtures v
    refine foldl_invariant (I := fun u => u.edges = v.edges ∧ u.mixtureEdges = v.mixtureEdges)
      (fun u mixture hu => ?_) mixtures ⟨rfl, rfl⟩
    unfold detachMixture
    split
    · exact hu
    · refine foldl_invariant (I := fun t => t.edges = v.edges ∧ t.mixtureEdges = v.mixtureEdges)
        (fun t slot ht => ?_) _ hu
      unfold detachTurf writeTurf
      split <;> exact ht
  have hclosed : ∀ mixtures : List MixtureHandle, KeepsLive cut (mixtures.foldl detachMixture cut) :=
    fun mixtures => foldl_invariant
      (fun _ mixture hv => (KeepsLive.turfBatchClosed cut).toGroundClosed.detachMixture mixture hv)
      mixtures (.refl cut)
  have hfinal := howns.of_same (hdetached (unregistering mutations).toList cut).1
    (hdetached (unregistering mutations).toList cut).2
  refine ⟨hfinal, fun mixture hbefore hafter => hfinal.unconnected fun key hkey => ?_⟩
  rw [(hdetached (unregistering mutations).toList cut).1] at hkey
  refine ((hkept key).1 hkey).2 mixture.slot (Std.TreeSet.mem_toList.2 ?_)
  by_contra hnot
  refine hafter (hclosed _ mixture (KeepsLive.of_same hframe.1 hframe.2.1 mixture ?_))
  exact ((hlive mixture hnot).2).2 (hgrown mixture hbefore)

end Lifecycle

end DogmosWorld

end Dogmos
