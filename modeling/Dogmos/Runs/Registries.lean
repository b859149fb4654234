import Dogmos.Lib.FloatOrder
import Dogmos.Runs.Batches
import Mathlib.Data.List.Pairwise

/-!
# The registries of a world

What the constructors of the two registries guarantee, and that a world keeps the
registries it has.

* `ReactionMetadataRegistry.WellFormed` — the reactions of a registry are numbered
  by their place, and its order holds each of them once.
* `ReactionMetadataRegistry.descending_of_tryNew` — the order of a registry goes
  down in priority, strictly.
* `furnished_of_reachable` — the reaction registry of a reachable world was built
  by the constructor.
* `registries_run` — once mixtures exist, no run changes the registries.
-/

namespace Dogmos

/-! ## Registries as their constructors build them -/

theorem firstRepeated_eq_none {α κ : Type} [DecidableEq κ] {key : α → κ} {l : List α}
    (h : (l.map key).Nodup) : firstRepeated key l = none := by
  induction l with
  | nil => rfl
  | cons a rest ih =>
    cases rest with
    | nil => rfl
    | cons b rest =>
      rw [List.map_cons, List.nodup_cons] at h
      unfold firstRepeated
      have hne : key a ≠ key b := fun heq => h.1 (by simp [heq])
      rw [if_neg hne]
      exact ih h.2

namespace ReactionMetadataRegistry

variable {F : Type} [FloatFormat F]

/-- Reactions numbered by their place, and an order that holds each of them once. -/
structure WellFormed (registry : ReactionMetadataRegistry F) : Prop where
  numbered : ∀ (i : Nat) (reaction : ReactionMetadata F),
    registry.reactions[i]? = some reaction → reaction.id.val.toNat = i
  nodup : registry.priorityOrder.Nodup
  order : ∀ id, id ∈ registry.priorityOrder ↔ ∃ reaction ∈ registry.reactions, reaction.id = id
  length : registry.priorityOrder.length = registry.reactions.length

/-- The bits that tell priorities apart. -/
def priorityBits (reaction : ReactionMetadata F) : Nat :=
  if reaction.priority == 0.0 then 0 else FloatFormat.toBits reaction.priority

theorem isFinite_of_validateReaction {reaction : ReactionMetadata F}
    {gases : GasMetadataRegistry F} {u : Unit} (h : validateReaction reaction gases = .ok u) :
    FloatFormat.isFinite reaction.priority = true := by
  by_contra hfinite
  unfold validateReaction at h
  simp only [bind, Except.bind, Bool.not_eq_true] at h hfinite
  rw [hfinite] at h
  cases h

/-- One round of the checks. -/
theorem collectReactionKeys_cons {gases : GasMetadataRegistry F} {reaction : ReactionMetadata F}
    {rest : List (ReactionMetadata F)} {expected : Nat}
    {idsByKey result : Std.TreeMap String ReactionId} {idsByPriority : Std.TreeMap Nat ReactionId} :
    collectReactionKeys gases (reaction :: rest) expected idsByKey idsByPriority = .ok result ↔
      reaction.id = ⟨UInt32.ofNat expected⟩ ∧ reaction.key ≠ "" ∧
      idsByKey.contains reaction.key = false ∧ validateReaction reaction gases = .ok () ∧
      idsByPriority[priorityBits reaction]? = none ∧
      collectReactionKeys gases rest (expected + 1) (idsByKey.insert reaction.key reaction.id)
        (idsByPriority.insert (priorityBits reaction) reaction.id) = .ok result := by
  have hpriority : priorityBits reaction =
      if reaction.priority == 0.0 then 0 else FloatFormat.toBits reaction.priority := rfl
  constructor
  · intro h
    unfold collectReactionKeys at h
    simp only [bind, Except.bind] at h
    by_cases hid : reaction.id ≠ ⟨UInt32.ofNat expected⟩
    · rw [if_pos hid] at h
      cases h
    by_cases hkey : reaction.key = ""
    · rw [if_neg hid, if_pos hkey] at h
      cases h
    by_cases hnew : idsByKey.contains reaction.key = true
    · rw [if_neg hid, if_neg hkey, if_pos hnew] at h
      cases h
    rw [if_neg hid, if_neg hkey, if_neg hnew] at h
    rcases hvalid : validateReaction reaction gases with error | valid
    · rw [hvalid] at h
      cases h
    · rw [hvalid] at h
      dsimp only at h
      rw [← hpriority] at h
      rcases hbits : idsByPriority[priorityBits reaction]? with _ | first
      · rw [hbits] at h
        exact ⟨of_not_not hid, hkey, Bool.not_eq_true _ ▸ hnew, rfl, rfl, h⟩
      · rw [hbits] at h
        cases h
  · rintro ⟨hid, hkey, hnew, hvalid, hbits, hrest⟩
    unfold collectReactionKeys
    simp only [bind, Except.bind]
    rw [if_neg (not_not.2 hid), if_neg hkey, if_neg (by simp [hnew]), hvalid]
    dsimp only
    rw [← hpriority, hbits]
    exact hrest

/-- What the checks of a registry let through: reactions numbered by their place and valid, with
keys that are new and distinct, and priorities that are. -/
theorem collectReactionKeys_iff {gases : GasMetadataRegistry F} :
    ∀ {reactions : List (ReactionMetadata F)} {expected : Nat}
      {idsByKey : Std.TreeMap String ReactionId} {idsByPriority : Std.TreeMap Nat ReactionId},
      (∃ result, collectReactionKeys gases reactions expected idsByKey idsByPriority = .ok result) ↔
      (∀ (i : Nat) (reaction : ReactionMetadata F), reactions[i]? = some reaction →
        reaction.id = ⟨UInt32.ofNat (expected + i)⟩) ∧
      (∀ reaction ∈ reactions, reaction.key ≠ "" ∧ idsByKey.contains reaction.key = false ∧
        validateReaction reaction gases = .ok () ∧
        idsByPriority[priorityBits reaction]? = none) ∧
      reactions.Pairwise fun a b => a.key ≠ b.key ∧ priorityBits a ≠ priorityBits b := by
  intro reactions
  induction reactions with
  | nil =>
    intro expected idsByKey _
    exact iff_of_true ⟨idsByKey, rfl⟩ ⟨fun i reaction h => (by simp at h), by simp, .nil⟩
  | cons reaction rest ih =>
    intro expected idsByKey idsByPriority
    have hstep : (∃ result, collectReactionKeys gases (reaction :: rest) expected idsByKey
        idsByPriority = .ok result) ↔ reaction.id = ⟨UInt32.ofNat expected⟩ ∧ reaction.key ≠ "" ∧
        idsByKey.contains reaction.key = false ∧ validateReaction reaction gases = .ok () ∧
        idsByPriority[priorityBits reaction]? = none ∧
        ∃ result, collectReactionKeys gases rest (expected + 1)
          (idsByKey.insert reaction.key reaction.id)
          (idsByPriority.insert (priorityBits reaction) reaction.id) = .ok result := by
      simp only [collectReactionKeys_cons, exists_and_left]
    rw [hstep, ih, List.forall_mem_cons, List.pairwise_cons]
    have hnew : ∀ other : ReactionMetadata F,
        ((idsByKey.insert reaction.key reaction.id).contains other.key = false ∧
          (idsByPriority.insert (priorityBits reaction) reaction.id)[priorityBits other]? = none) ↔
        (idsByKey.contains other.key = false ∧ idsByPriority[priorityBits other]? = none) ∧
          reaction.key ≠ other.key ∧ priorityBits reaction ≠ priorityBits other := by
      intro other
      rw [Std.TreeMap.contains_insert, Std.TreeMap.getElem?_insert, Bool.or_eq_false_iff]
      by_cases hbits : priorityBits reaction = priorityBits other
      · simp [hbits]
      · rw [if_neg (by simpa using hbits)]
        simp [hbits]
        tauto
    have hplaces : (∀ (i : Nat) (other : ReactionMetadata F), (reaction :: rest)[i]? = some other →
        other.id = ⟨UInt32.ofNat (expected + i)⟩) ↔ reaction.id = ⟨UInt32.ofNat expected⟩ ∧
        ∀ (i : Nat) (other : ReactionMetadata F), rest[i]? = some other →
          other.id = ⟨UInt32.ofNat (expected + 1 + i)⟩ := by
      constructor
      · intro h
        refine ⟨h 0 reaction rfl, fun i other hother => ?_⟩
        rw [h (i + 1) other hother]
        congr 2
        omega
      · rintro ⟨hfirst, hrest⟩ i other hother
        rcases i with _ | i
        · cases hother
          exact hfirst
        · rw [hrest i other hother]
          congr 2
          omega
    rw [hplaces]
    constructor
    · rintro ⟨hid, hkey, hkeyNew, hvalid, hbits, hrest, hothers, hpairwise⟩
      refine ⟨⟨hid, hrest⟩, ⟨⟨hkey, hkeyNew, hvalid, hbits⟩, fun other hother => ?_⟩,
        fun other hother => ?_, hpairwise⟩
      · obtain ⟨hotherKey, hotherNew, hotherValid, hotherBits⟩ := hothers other hother
        obtain ⟨⟨hnewKey, hnewBits⟩, -⟩ := (hnew other).1 ⟨hotherNew, hotherBits⟩
        exact ⟨hotherKey, hnewKey, hotherValid, hnewBits⟩
      · obtain ⟨-, hotherNew, -, hotherBits⟩ := hothers other hother
        exact ((hnew other).1 ⟨hotherNew, hotherBits⟩).2
    · rintro ⟨⟨hid, hrest⟩, ⟨⟨hkey, hkeyNew, hvalid, hbits⟩, hothers⟩, hfirst, hpairwise⟩
      refine ⟨hid, hkey, hkeyNew, hvalid, hbits, hrest, fun other hother => ?_, hpairwise⟩
      obtain ⟨hotherKey, hotherNew, hotherValid, hotherBits⟩ := hothers other hother
      obtain ⟨hnewKey, hnewBits⟩ := (hnew other).2 ⟨⟨hotherNew, hotherBits⟩, hfirst other hother⟩
      exact ⟨hotherKey, hnewKey, hotherValid, hnewBits⟩

theorem collectReactionKeys_ok {gases : GasMetadataRegistry F}
    {reactions : List (ReactionMetadata F)} {idsByKey : Std.TreeMap String ReactionId}
    (h : collectReactionKeys gases reactions 0 ∅ ∅ = .ok idsByKey) :
    (∀ (i : Nat) (reaction : ReactionMetadata F), reactions[i]? = some reaction →
      reaction.id = ⟨UInt32.ofNat i⟩ ∧ FloatFormat.isFinite reaction.priority = true) ∧
    reactions.Pairwise fun a b => priorityBits a ≠ priorityBits b := by
  obtain ⟨hplaces, hvalid, hpairwise⟩ := collectReactionKeys_iff.1 ⟨_, h⟩
  refine ⟨fun i reaction hreaction => ⟨?_, ?_⟩, hpairwise.imp And.right⟩
  · rw [hplaces i reaction hreaction, Nat.zero_add]
  · exact isFinite_of_validateReaction (hvalid reaction (List.mem_of_getElem? hreaction)).2.2.1

omit [FloatFormat F] in
/-- A sorted list in which no neighbours share an id goes up strictly. -/
theorem pairwise_of_firstRepeated : ∀ {l : List (ReactionMetadata F)},
    (l.Pairwise fun a b => a.id.val ≤ b.id.val) → firstRepeated ReactionMetadata.id l = none →
      l.Pairwise fun a b => a.id.val < b.id.val := by
  intro l
  induction l with
  | nil => exact fun _ _ => .nil
  | cons a rest ih =>
    intro hle hrepeated
    obtain ⟨hhead, htail⟩ := List.pairwise_cons.1 hle
    cases rest with
    | nil => exact List.pairwise_singleton ..
    | cons b rest =>
      unfold firstRepeated at hrepeated
      split at hrepeated
      · cases hrepeated
      · next hne =>
        have hrest := ih htail hrepeated
        have hfirst : a.id.val < b.id.val := by
          refine UInt32.lt_of_le_of_ne (hhead b List.mem_cons_self) fun heq => hne ?_
          cases ha : a.id
          cases hb : b.id
          rw [ha, hb] at heq
          exact congrArg _ heq
        refine List.pairwise_cons.2 ⟨fun c hc => ?_, hrest⟩
        rcases List.mem_cons.1 hc with rfl | hc
        · exact hfirst
        · exact UInt32.lt_trans hfirst ((List.pairwise_cons.1 hrest).1 c hc)

/-- How a constructor call that is accepted builds the registry. -/
theorem tryNew_ok {list : List (ReactionMetadata F)} {gases : GasMetadataRegistry F}
    {registry : ReactionMetadataRegistry F} (h : tryNew list gases = .ok registry) :
    registry.reactions = (list.insertionSort fun a b => a.id.val ≤ b.id.val) ∧
    firstRepeated ReactionMetadata.id registry.reactions = none ∧
    (∃ idsByKey, collectReactionKeys gases registry.reactions 0 ∅ ∅ = .ok idsByKey) ∧
    registry.priorityOrder =
      (registry.reactions.map ReactionMetadata.id).insertionSort fun left right =>
        (FloatFormat.totalCmp (priorityOf registry.reactions right)
          (priorityOf registry.reactions left)).isLE := by
  unfold tryNew at h
  simp only [bind, Except.bind] at h
  rcases hrepeated : firstRepeated ReactionMetadata.id
      (list.insertionSort fun a b => a.id.val ≤ b.id.val) with _ | duplicate
  · rw [hrepeated] at h
    dsimp only [pure, Except.pure] at h
    rcases hkeys : collectReactionKeys gases
        (list.insertionSort fun a b => a.id.val ≤ b.id.val) 0 ∅ ∅ with error | idsByKey
    · rw [hkeys] at h
      cases h
    · rw [hkeys] at h
      cases h
      exact ⟨rfl, hrepeated, ⟨idsByKey, hkeys⟩, rfl⟩
  · rw [hrepeated] at h
    cases h

/-- The ids of the reactions of a registry go up. -/
theorem ascending_of_tryNew {list : List (ReactionMetadata F)} {gases : GasMetadataRegistry F}
    {registry : ReactionMetadataRegistry F} (h : tryNew list gases = .ok registry) :
    registry.reactions.Pairwise fun a b => a.id.val < b.id.val := by
  obtain ⟨hsorted, hrepeated, -, -⟩ := tryNew_ok h
  have htotal : Std.Total fun a b : ReactionMetadata F => a.id.val ≤ b.id.val :=
    ⟨fun a b => UInt32.le_total _ _⟩
  have htrans : IsTrans (ReactionMetadata F) fun a b => a.id.val ≤ b.id.val :=
    ⟨fun a b c => UInt32.le_trans⟩
  have hle := List.pairwise_insertionSort (fun a b : ReactionMetadata F => a.id.val ≤ b.id.val) list
  rw [← hsorted] at hle
  exact pairwise_of_firstRepeated hle hrepeated

/-- **The registries that are built are well-formed.** -/
theorem wellFormed_of_tryNew {list : List (ReactionMetadata F)} {gases : GasMetadataRegistry F}
    {registry : ReactionMetadataRegistry F} (h : tryNew list gases = .ok registry) :
    registry.WellFormed := by
  have hascending := ascending_of_tryNew h
  obtain ⟨-, -, ⟨idsByKey, hkeys⟩, horder⟩ := tryNew_ok h
  have hperm := List.perm_insertionSort (fun left right =>
    (FloatFormat.totalCmp (priorityOf registry.reactions right)
      (priorityOf registry.reactions left)).isLE) (registry.reactions.map ReactionMetadata.id)
  rw [← horder] at hperm
  have hnumber := (collectReactionKeys_ok hkeys).1
  refine ⟨fun i reaction hreaction => ?_, ?_, fun id => ?_, ?_⟩
  · obtain ⟨hid, -⟩ := hnumber i reaction hreaction
    have hsmall : i < 2 ^ 32 := by
      -- the reaction at place 2 ^ 32 would have the number of the first
      by_contra hlarge
      have hi := (List.getElem?_eq_some_iff.1 hreaction).1
      have hfirst := (hnumber 0 _ (List.getElem?_eq_getElem (by omega))).1
      have hwrapped := (hnumber (2 ^ 32) _ (List.getElem?_eq_getElem (by omega))).1
      have hlt := List.pairwise_iff_getElem.1 hascending 0 (2 ^ 32) (by omega) (by omega) (by omega)
      rw [hfirst, hwrapped] at hlt
      exact absurd hlt (by decide)
    rw [hid]
    exact UInt32.toNat_ofNat_of_lt' hsmall
  · refine (List.Perm.nodup_iff hperm).2 ?_
    refine List.Pairwise.map _ (fun a b hab heq => ?_) hascending
    rw [heq] at hab
    exact UInt32.lt_irrefl _ hab
  · rw [hperm.mem_iff, List.mem_map]
  · rw [hperm.length_eq, List.length_map]

/-- The priority of a reaction of a registry. -/
theorem WellFormed.priorityOf_id {registry : ReactionMetadataRegistry F} (h : registry.WellFormed)
    {reaction : ReactionMetadata F} (hreaction : reaction ∈ registry.reactions) :
    priorityOf registry.reactions reaction.id = reaction.priority := by
  obtain ⟨i, hi⟩ := List.mem_iff_getElem?.1 hreaction
  unfold priorityOf
  rw [h.numbered i reaction hi, hi]
  rfl

/-- **The order goes down in priority**, strictly. -/
theorem descending_of_tryNew {list : List (ReactionMetadata F32)} {gases : GasMetadataRegistry F32}
    {registry : ReactionMetadataRegistry F32} (h : tryNew list gases = .ok registry) :
    registry.priorityOrder.Pairwise fun a b =>
      priorityOf registry.reactions b < priorityOf registry.reactions a := by
  have hformed := wellFormed_of_tryNew h
  obtain ⟨-, -, ⟨idsByKey, hkeys⟩, horder⟩ := tryNew_ok h
  obtain ⟨hchecked, hdistinct⟩ := collectReactionKeys_ok hkeys
  have hkey : ∀ left right : ReactionId, (FloatFormat.totalCmp
      (priorityOf registry.reactions right) (priorityOf registry.reactions left)).isLE = true ↔
      Ieee.totalKey 32 (priorityOf registry.reactions right).toBits.toNat ≤
        Ieee.totalKey 32 (priorityOf registry.reactions left).toBits.toNat :=
    fun left right => Int.isLE_compare
  have hsorted : registry.priorityOrder.Pairwise fun left right => (FloatFormat.totalCmp
      (priorityOf registry.reactions right) (priorityOf registry.reactions left)).isLE = true := by
    rw [horder]
    have htotal : Std.Total fun left right : ReactionId => (FloatFormat.totalCmp
        (priorityOf registry.reactions right) (priorityOf registry.reactions left)).isLE = true :=
      ⟨fun left right => by rw [hkey, hkey]; exact Int.le_total _ _⟩
    have htrans : IsTrans ReactionId fun left right => (FloatFormat.totalCmp
        (priorityOf registry.reactions right) (priorityOf registry.reactions left)).isLE = true :=
      ⟨fun a b c hab hbc => by rw [hkey] at hab hbc ⊢; exact Int.le_trans hbc hab⟩
    exact List.pairwise_insertionSort _ _
  refine List.Pairwise.imp_of_mem (fun {a b} ha hb hab => ?_) (hsorted.and hformed.nodup)
  obtain ⟨left, hleft, rfl⟩ := (hformed.order a).1 ha
  obtain ⟨right, hright, rfl⟩ := (hformed.order b).1 hb
  have hbits : priorityBits left ≠ priorityBits right := by
    have hsymm : Std.Symm fun a b : ReactionMetadata F32 => priorityBits a ≠ priorityBits b :=
      ⟨fun _ _ hne => Ne.symm hne⟩
    exact hdistinct.forall hleft hright fun heq => hab.2 (congrArg _ heq)
  have hfinite : ∀ reaction ∈ registry.reactions,
      FloatFormat.isFinite reaction.priority = true := by
    intro reaction hreaction
    obtain ⟨i, hi⟩ := List.mem_iff_getElem?.1 hreaction
    exact (hchecked i reaction hi).2
  have hzero : ∀ reaction ∈ registry.reactions, reaction.priority.magnitude = 0 →
      priorityBits reaction = 0 := by
    intro reaction hreaction hmagnitude
    unfold priorityBits
    rw [if_pos (F32.beq_of_magnitude (hfinite reaction hreaction) (by decide) hmagnitude
      (by decide))]
  have hle := (hkey left.id right.id).1 hab.1
  rw [hformed.priorityOf_id hleft, hformed.priorityOf_id hright] at hle ⊢
  refine F32.lt_of_totalCmp (hfinite right hright) (hfinite left hleft) ?_ ?_
  · refine Int.compare_eq_lt.2 (Int.lt_iff_le_and_ne.2 ⟨hle, fun heq => hbits ?_⟩)
    unfold priorityBits
    rw [F32.eq_of_totalKey heq]
  · by_contra hboth
    rw [not_or, not_not, not_not] at hboth
    exact hbits ((hzero left hleft hboth.2).trans (hzero right hright hboth.1).symm)

end ReactionMetadataRegistry

/-! ## Worlds keep their registries -/

namespace DogmosWorld

open Exec

variable {F D : Type}

/-- The two registries. -/
def registries (w : DogmosWorld F) :
    Option (GasMetadataRegistry F) × Option (ReactionMetadataRegistry F) :=
  (w.gasRegistry, w.reactionRegistry)

variable {w w' : DogmosWorld F}

theorem recordsClosed_registries [FloatFormat F] (w : DogmosWorld F) :
    RecordsClosed fun v : DogmosWorld F => v.registries = w.registries where
  writeMixture v slot f _ h := by
    unfold writeMixture
    split <;> exact h
  edges _ _ _ h := h
  configuration _ _ _ h := h
  events _ _ h := h
  settle _ _ hstep h := ContinuationClosed.settle
    (I := fun v : DogmosWorld F => v.registries = w.registries) (fun _ _ _ h => h) hstep h
  writeTurf v slot f h := by
    unfold writeTurf
    split <;> exact h
  putTurf _ _ _ _ h := h
  growTurfs _ _ h := h
  heatActive _ _ h := h
  topology _ _ h := h
  mixtureTurfs _ _ h := h
  putMixture _ _ _ _ h := h
  growMixtures _ _ h := h

variable [FloatFormat F] [FloatFormat D]

theorem registries_of_stageStep (h : StageStep (D := D) w w') : w'.registries = w.registries :=
  congrArg (fun ground => (ground.gasRegistry, ground.reactionRegistry)) (effect_of_stageStep h).1

variable [FloatCast F D]

/-- Only the operations that install a registry change one. -/
theorem registries_step {op : Op F D} (hop : ¬op.IsInstall) :
    (step w op).registries = w.registries := by
  have hclosed := recordsClosed_registries w
  by_cases hbatch : op.IsBatch
  · exact keeps_exec_of_isBatch hclosed hbatch w rfl
  · refine keeps_exec_of_sequenceClosed hclosed.toSequenceClosed hbatch ?_ (fun h => absurd h hop)
      (keeps_exec_of_isFrontier fun _ _ h => h) (fun hrun => ?_) w rfl
    · rintro mutations rfl
      exact keeps_discard (keeps_applyAdjacency hclosed.edges _)
    · cases hrun with
      | reactMixture mixture target threshold eventLimit clock =>
        exact keeps_discard (keeps_reactMixture hclosed.toSequenceClosed
          (keeps_allocateContinuation fun _ _ _ h => h) _ _ _ _ _)
      | processStageChunk request eventLimit shouldCancel =>
        refine keeps_discard fun v hv => ?_
        exact processStageChunk_induct
          (fun _ _ hstep h => (registries_of_stageStep hstep).trans h) v _ _ _ hv

/-- The reaction registry was built over the gas registry. -/
def Furnished (w : DogmosWorld F) : Prop :=
  ∀ registry, w.reactionRegistry = some registry → ∃ list gases, w.gasRegistry = some gases ∧
    ReactionMetadataRegistry.tryNew list gases = .ok registry

omit [FloatFormat D] [FloatCast F D] in
theorem Furnished.same (h : w.Furnished) (hsame : w'.registries = w.registries) : w'.Furnished := by
  obtain ⟨hgas, hreaction⟩ := Prod.mk.inj hsame
  intro registry hregistry
  obtain ⟨list, gases, hgases, hbuilt⟩ := h registry (hreaction ▸ hregistry)
  exact ⟨list, gases, hgas.trans hgases, hbuilt⟩

omit [FloatFormat D] [FloatCast F D] in
/-- Gases are installed once, so before the reactions. -/
theorem keeps_furnished_installGases (gases : List (GasMetadata F)) :
    Keeps Furnished (installGases gases) := by
  unfold installGases
  refine keeps_get_bind_at fun w hw => ?_
  dsimp only
  by_cases hgas : w.gasRegistry.isSome
  · rw [if_pos hgas]
    exact hw
  by_cases hempty : ¬w.mixtures.isEmpty
  · rw [if_neg hgas, if_pos hempty]
    exact hw
  rw [if_neg hgas, if_neg hempty, run_bind, run_check]
  rcases (GasMetadataRegistry.tryNew gases).mapError WorldError.gasMetadata with error | registry
  · exact hw
  · intro reactions hreactions
    obtain ⟨list, installed, hinstalled, -⟩ := hw reactions hreactions
    exact absurd (Option.isSome_of_eq_some hinstalled) hgas

omit [FloatFormat D] [FloatCast F D] in
theorem keeps_furnished_installReactions (reactions : List (ReactionMetadata F)) :
    Keeps Furnished (installReactions reactions) := by
  unfold installReactions
  refine keeps_get_bind_at fun w hw => ?_
  dsimp only
  by_cases hregistry : w.reactionRegistry.isSome
  · rw [if_pos hregistry]
    exact hw
  by_cases hempty : ¬w.mixtures.isEmpty
  · rw [if_neg hregistry, if_pos hempty]
    exact hw
  rw [if_neg hregistry, if_neg hempty, run_bind, run_check]
  unfold requireGases
  rcases hgases : w.gasRegistry with _ | gases
  · exact hw
  · dsimp only [pure, Except.pure]
    rw [run_bind, run_check]
    rcases hbuilt : ReactionMetadataRegistry.tryNew reactions gases with error | registry
    · exact hw
    · intro installed hinstalled
      cases hinstalled
      exact ⟨reactions, gases, hgases, hbuilt⟩

theorem furnished_of_reachable (h : Reachable (D := D) w) : w.Furnished := by
  refine reachable_induct (fun w hinit => ?_) (fun w op hw => ?_) h
  · obtain ⟨_, _, _, _, _, rfl⟩ := hinit
    exact fun registry hregistry => by cases hregistry
  · by_cases hop : op.IsInstall
    · cases hop with
      | installGases gases => exact keeps_discard (keeps_furnished_installGases gases) w hw
      | installReactions reactions =>
        exact keeps_discard (keeps_furnished_installReactions reactions) w hw
    · exact hw.same (registries_step hop)

/-! ## Once mixtures exist -/

/-- The world has slots for mixtures. -/
def Populated (w : DogmosWorld F) : Prop := w.mixtures ≠ []

omit [FloatFormat F] [FloatFormat D] [FloatCast F D] in
theorem length_mixtures_writeMixture (w : DogmosWorld F) (slot : Nat)
    (f : MixtureRecord F → MixtureRecord F) :
    (w.writeMixture slot f).mixtures.length = w.mixtures.length := by
  unfold writeMixture
  split
  · rfl
  · exact List.length_set

omit [FloatFormat F] [FloatFormat D] [FloatCast F D] in
theorem length_mixtures_stageMixture (w : DogmosWorld F) (slot : Nat) (id : PublicationId)
    (candidate : MixtureRecord F) :
    (w.stageMixture slot id candidate).mixtures.length = w.mixtures.length := by
  unfold stageMixture
  split
  · rfl
  · exact List.length_set

theorem length_le_growSlots {α : Type} (slots : List UInt32) (vacant : α) (table : List α) :
    table.length ≤ (growSlots table slots vacant).length := by
  induction slots generalizing table with
  | nil => exact Nat.le_refl _
  | cons slot rest ih =>
    refine Nat.le_trans ?_ (ih (growTo table slot.toNat vacant))
    unfold growTo
    rw [List.length_append]
    omega

/-- The world has a number of slots for mixtures, or more. -/
def HasSlots (slots : Nat) (w : DogmosWorld F) : Prop := slots ≤ w.mixtures.length

omit [FloatFormat D] [FloatCast F D] in
theorem batchClosed_hasSlots (slots : Nat) : BatchClosed (HasSlots (F := F) slots) where
  writeMixture v slot f _ h :=
    Nat.le_trans h (Nat.le_of_eq (length_mixtures_writeMixture v slot f).symm)
  edges _ _ _ h := h
  registries _ _ _ h := h
  configuration _ _ _ h := h
  events _ _ h := h
  settle _ _ hstep h := ContinuationClosed.settle (I := HasSlots slots) (fun _ _ _ h => h) hstep h
  frontier _ _ h := h
  writeTurf v slot f h := by
    unfold writeTurf
    split <;> exact h
  putTurf _ _ _ _ h := h
  growTurfs _ _ h := h
  heatActive _ _ h := h
  topology _ _ h := h
  mixtureTurfs _ _ h := h
  putMixture v slot f _ h := Nat.le_trans h (Nat.le_of_eq (List.length_modify ..).symm)
  growMixtures v added h := Nat.le_trans h (length_le_growSlots added _ _)

omit [FloatCast F D] in
theorem hasSlots_of_stageStep {slots : Nat} (h : w.HasSlots slots)
    (hstep : StageStep (D := D) w w') : w'.HasSlots slots := by
  unfold HasSlots at h ⊢
  rcases (effect_of_stageStep hstep).2 with ⟨slot, id, candidate, rfl, -⟩ | hsame
  · rwa [length_mixtures_stageMixture]
  · rwa [hsame]

/-- No operation takes slots for mixtures away. -/
theorem hasSlots_step {slots : Nat} (h : w.HasSlots slots) (op : Op F D) :
    (step w op).HasSlots slots :=
  keeps_exec_of_batchClosed (batchClosed_hasSlots slots) (keeps_allocateContinuation fun _ _ _ h => h)
    (fun _ _ hstep hv => hasSlots_of_stageStep hv hstep) op w h

theorem populated_step (h : w.Populated) (op : Op F D) : (step w op).Populated :=
  List.length_pos_iff.1 (hasSlots_step (List.length_pos_iff.2 h : w.HasSlots 1) op)

/-- A registry is installed before the first mixture. -/
theorem registries_of_isInstall (h : w.Populated) {op : Op F D} (hop : op.IsInstall) :
    (step w op).registries = w.registries := by
  have hfull : ¬w.mixtures.isEmpty = true := fun hempty => h (List.isEmpty_iff.1 hempty)
  unfold step
  cases hop with
  | installGases gases =>
    unfold exec
    rw [final_discard]
    unfold installGases final
    rw [run_bind, run_get]
    dsimp only
    by_cases hgas : w.gasRegistry.isSome
    · rw [if_pos hgas]
      rfl
    · rw [if_neg hgas, if_pos hfull]
      rfl
  | installReactions reactions =>
    unfold exec
    rw [final_discard]
    unfold installReactions final
    rw [run_bind, run_get]
    dsimp only
    by_cases hregistry : w.reactionRegistry.isSome
    · rw [if_pos hregistry]
      rfl
    · rw [if_neg hregistry, if_pos hfull]
      rfl

/-- **Once mixtures exist**, no run changes the registries. -/
theorem registries_run (h : w.Populated) (ops : List (Op F D)) :
    (System.run step w ops).registries = w.registries := by
  induction ops generalizing w with
  | nil => rfl
  | cons op rest ih =>
    refine (ih (populated_step h op)).trans ?_
    by_cases hop : op.IsInstall
    · exact registries_of_isInstall h hop
    · exact registries_step hop

end DogmosWorld

end Dogmos
