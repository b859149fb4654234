import Dogmos.Runs.Registries

/-!
# The order reactions run in

Which reaction lists are registered, and in which order a mixture tries the reactions of a
registry.

* `accepts_iff` — a list is registered exactly if it is `Acceptable`, whatever its order.
* `reactableIds_eq_filter` — sharing the computed totals between reactions changes nothing.
* `Visits` — a run over the reactions in order, each of them asked at the mixture the reactions
  before it left; `visits_evaluateReactionSequence` says that a sequence is one.
-/

namespace Dogmos

namespace ReactionMetadataRegistry

/-! ## Lists that are registered -/

section Acceptance

variable {list list' : List (ReactionMetadata F32)} {gases : GasMetadataRegistry F32}

/-- A list of reactions numbered densely, with keys and priorities of their own, all valid. -/
structure Acceptable (list : List (ReactionMetadata F32)) (gases : GasMetadataRegistry F32) :
    Prop where
  dense : (list.map fun reaction => reaction.id.val.toNat).Perm (List.range list.length)
  keyed : ∀ reaction ∈ list, reaction.key ≠ ""
  keys : (list.map ReactionMetadata.key).Nodup
  priorities : list.Pairwise fun a b => (a.priority == b.priority) = false
  valid : ∀ reaction ∈ list, validateReaction reaction gases = .ok ()

theorem Acceptable.perm (h : Acceptable list gases) (hperm : list.Perm list') :
    Acceptable list' gases where
  dense := hperm.length_eq ▸ ((hperm.map _).symm.trans h.dense)
  keyed reaction hreaction := h.keyed reaction (hperm.mem_iff.2 hreaction)
  keys := (hperm.map _).nodup_iff.1 h.keys
  priorities := hperm.pairwise h.priorities fun hab => by rwa [F32.beq_symm]
  valid reaction hreaction := h.valid reaction (hperm.mem_iff.2 hreaction)

/-- Equal priorities of either sign of zero are told by the bits. -/
theorem priorityBits_eq_iff {a b : ReactionMetadata F32}
    (ha : FloatFormat.isFinite a.priority = true) (hb : FloatFormat.isFinite b.priority = true) :
    priorityBits a = priorityBits b ↔ (a.priority == b.priority) = true := by
  have hzero : ∀ {c : ReactionMetadata F32}, FloatFormat.isFinite c.priority = true →
      ((c.priority == 0.0) = true ↔ c.priority.magnitude = 0) := by
    intro c hc
    rw [F32.beq_iff hc (by decide)]
    constructor
    · rintro (heq | hzero)
      · rw [heq]
        decide
      · exact hzero.1
    · exact fun hzero => .inr ⟨hzero, by decide⟩
  have hbits : ∀ {c : ReactionMetadata F32}, priorityBits c =
      if (c.priority == 0.0) = true then 0 else c.priority.toBits.toNat := fun {c} => rfl
  rw [F32.beq_iff ha hb, hbits, hbits]
  by_cases hzeroA : a.priority.magnitude = 0
  · rw [if_pos ((hzero ha).2 hzeroA)]
    by_cases hzeroB : b.priority.magnitude = 0
    · rw [if_pos ((hzero hb).2 hzeroB)]
      exact iff_of_true rfl (.inr ⟨hzeroA, hzeroB⟩)
    · rw [if_neg (mt (hzero hb).1 hzeroB)]
      refine iff_of_false (fun hbits => hzeroB ?_) ?_
      · rw [F32.magnitude, ← hbits, Nat.zero_mod]
      · rintro (heq | hboth)
        · exact hzeroB (heq ▸ hzeroA)
        · exact hzeroB hboth.2
  · rw [if_neg (mt (hzero ha).1 hzeroA)]
    by_cases hzeroB : b.priority.magnitude = 0
    · rw [if_pos ((hzero hb).2 hzeroB)]
      refine iff_of_false (fun hbits => hzeroA ?_) ?_
      · rw [F32.magnitude, hbits, Nat.zero_mod]
      · rintro (heq | hboth)
        · exact hzeroA (heq ▸ hzeroB)
        · exact hzeroA hboth.1
    · rw [if_neg (mt (hzero hb).1 hzeroB)]
      constructor
      · intro hbits
        exact .inl (F32.eq_of_totalKey (by rw [hbits]))
      · rintro (heq | hboth)
        · rw [heq]
        · exact absurd hboth.1 hzeroA

/-- A list, sorted by id as the constructor sorts it. -/
def sortedById (list : List (ReactionMetadata F32)) : List (ReactionMetadata F32) :=
  list.insertionSort fun a b => a.id.val ≤ b.id.val

theorem perm_sortedById (list : List (ReactionMetadata F32)) : (sortedById list).Perm list :=
  List.perm_insertionSort _ _

theorem pairwise_sortedById (list : List (ReactionMetadata F32)) :
    (sortedById list).Pairwise fun a b => a.id.val ≤ b.id.val := by
  have htotal : Std.Total fun a b : ReactionMetadata F32 => a.id.val ≤ b.id.val :=
    ⟨fun a b => UInt32.le_total _ _⟩
  have htrans : IsTrans (ReactionMetadata F32) fun a b => a.id.val ≤ b.id.val :=
    ⟨fun a b c => UInt32.le_trans⟩
  exact List.pairwise_insertionSort _ _

theorem exists_tryNew_iff : (∃ registry, tryNew list gases = .ok registry) ↔
    firstRepeated ReactionMetadata.id (sortedById list) = none ∧
      ∃ result, collectReactionKeys gases (sortedById list) 0 ∅ ∅ = .ok result := by
  constructor
  · rintro ⟨registry, h⟩
    obtain ⟨hsorted, hrepeated, hkeys, -⟩ := tryNew_ok h
    rw [hsorted] at hrepeated hkeys
    exact ⟨hrepeated, hkeys⟩
  · rintro ⟨hrepeated, result, hkeys⟩
    unfold sortedById at hrepeated hkeys
    unfold tryNew
    simp only [bind, Except.bind, hrepeated, hkeys, pure, Except.pure]
    exact ⟨_, rfl⟩

/-- Dense numbers go up by one in a sorted list. -/
theorem Acceptable.numbered (h : Acceptable list gases) :
    (sortedById list).map (fun reaction => reaction.id.val.toNat) = List.range list.length := by
  have hperm := ((perm_sortedById list).map fun reaction => reaction.id.val.toNat).trans h.dense
  have hsorted : ((sortedById list).map fun reaction => reaction.id.val.toNat).Pairwise (· ≤ ·) :=
    List.Pairwise.map _ (fun a b hab => hab) (pairwise_sortedById list)
  have hrange : (List.range list.length).Pairwise (· ≤ ·) :=
    List.pairwise_lt_range.imp Nat.le_of_lt
  exact hperm.eq_of_pairwise (fun a b _ _ hab hba => Nat.le_antisymm hab hba) hsorted hrange

/-- **A list is registered** exactly if it is acceptable. -/
theorem accepts_iff : (∃ registry, tryNew list gases = .ok registry) ↔ Acceptable list gases := by
  constructor
  · rintro ⟨registry, h⟩
    obtain ⟨hsorted, -, hkeys, -⟩ := tryNew_ok h
    have hperm : registry.reactions.Perm list := hsorted ▸ perm_sortedById list
    obtain ⟨-, hvalid, hpairwise⟩ := collectReactionKeys_iff.1 hkeys
    have hfinite : ∀ reaction ∈ registry.reactions,
        FloatFormat.isFinite reaction.priority = true := fun reaction hreaction =>
      isFinite_of_validateReaction (hvalid reaction hreaction).2.2.1
    refine Acceptable.perm ?_ hperm
    refine ⟨?_, fun reaction hreaction => (hvalid reaction hreaction).1, ?_, ?_,
      fun reaction hreaction => (hvalid reaction hreaction).2.2.1⟩
    · have hnumbered : registry.reactions.map (fun reaction => reaction.id.val.toNat) =
          List.range registry.reactions.length := by
        refine List.ext_getElem (by simp) fun i hi _ => ?_
        rw [List.getElem_map, List.getElem_range]
        exact (wellFormed_of_tryNew h).numbered i _ (List.getElem?_eq_getElem _)
      rw [hnumbered]
    · exact List.pairwise_map.2 (hpairwise.imp And.left)
    · refine hpairwise.imp_of_mem fun ha hb hab => ?_
      rw [← Bool.not_eq_true, ← priorityBits_eq_iff (hfinite _ ha) (hfinite _ hb)]
      exact hab.2
  · intro h
    have hnumbered := h.numbered
    have hsorted := h.perm (perm_sortedById list).symm
    refine exists_tryNew_iff.2 ⟨firstRepeated_eq_none ?_, collectReactionKeys_iff.2 ⟨?_, ?_, ?_⟩⟩
    · have hnodup : ((sortedById list).map fun reaction => reaction.id.val.toNat).Nodup := by
        rw [hnumbered]
        exact List.nodup_range
      refine List.pairwise_map.2 ((List.pairwise_map.1 hnodup).imp fun hne heq => hne ?_)
      rw [heq]
    · intro i reaction hreaction
      have hi : _ = (List.range list.length)[i]? := congrArg (fun numbers => numbers[i]?) hnumbered
      rw [List.getElem?_map, hreaction, List.getElem?_range (by
        rw [← (perm_sortedById list).length_eq]
        exact (List.getElem?_eq_some_iff.1 hreaction).1)] at hi
      have hid : reaction.id.val.toNat = i := Option.some.inj hi
      rw [Nat.zero_add, ← hid, UInt32.ofNat_toNat]
    · intro reaction hreaction
      exact ⟨hsorted.keyed reaction hreaction, by simp, hsorted.valid reaction hreaction, by simp⟩
    · have hkeys := List.pairwise_map.1 hsorted.keys
      refine (hkeys.and hsorted.priorities).imp_of_mem fun ha hb hab => ⟨hab.1, ?_⟩
      rw [Ne, priorityBits_eq_iff (isFinite_of_validateReaction (hsorted.valid _ ha))
        (isFinite_of_validateReaction (hsorted.valid _ hb)), hab.2]
      simp

end Acceptance

/-! ## Shared totals -/

section Totals

variable {F : Type} [FloatFormat F] {temperature : F} {moles : Gases F}
  {gases : GasMetadataRegistry F} {totals : ReactionTotals F}

/-- Totals that are computed are those of the mixture. -/
structure TotalsOf (temperature : F) (moles : Gases F) (gases : GasMetadataRegistry F)
    (totals : ReactionTotals F) : Prop where
  thermalEnergy : ∀ energy ∈ totals.thermalEnergy,
    energy = reactionThermalEnergy temperature moles gases
  fireReagents : ∀ reagents ∈ totals.fireReagents,
    reagents = reactionFireReagents temperature moles gases

theorem totalsOf_none : TotalsOf temperature moles gases {} :=
  ⟨fun _ h => (by cases h), fun _ h => (by cases h)⟩

/-- The conditions of a reaction do not depend on which totals are computed already. -/
theorem reactionConditionsMet_eq (h : TotalsOf temperature moles gases totals)
    (reaction : ReactionMetadata F) :
    (reactionConditionsMet reaction temperature moles gases totals).1 =
        (reactionConditionsMet reaction temperature moles gases {}).1 ∧
      TotalsOf temperature moles gases
        (reactionConditionsMet reaction temperature moles gases totals).2 := by
  have henergy : totals.thermalEnergy.getD (reactionThermalEnergy temperature moles gases) =
      reactionThermalEnergy temperature moles gases := by
    rcases hcached : totals.thermalEnergy with _ | energy
    · rfl
    · exact h.thermalEnergy energy hcached
  have hreagents : totals.fireReagents.getD (reactionFireReagents temperature moles gases) =
      reactionFireReagents temperature moles gases := by
    rcases hcached : totals.fireReagents with _ | reagents
    · rfl
    · exact h.fireReagents reagents hcached
  have hcomputed : TotalsOf temperature moles gases
      { totals with thermalEnergy := some (reactionThermalEnergy temperature moles gases) } :=
    ⟨fun energy henergy => (Option.some.inj henergy).symm, h.fireReagents⟩
  unfold reactionConditionsMet
  split
  · exact ⟨rfl, h⟩
  · rcases reaction.minimumEnergy with _ | energy
    · dsimp only
      rcases reaction.minimumFireReagents with _ | reagents
      · exact ⟨rfl, h⟩
      · simp only [hreagents]
        exact ⟨rfl, h.thermalEnergy, fun reagents hsome => (Option.some.inj hsome).symm⟩
    · simp only [henergy]
      by_cases hmet : energy ≤ reactionThermalEnergy temperature moles gases
      · rcases reaction.minimumFireReagents with _ | reagents
        · simp only [hmet, decide_true, Option.getD_none]
          exact ⟨rfl, hcomputed⟩
        · simp only [hmet, hreagents, decide_true, Option.getD_none]
          exact ⟨rfl, hcomputed.thermalEnergy, fun reagents hsome => (Option.some.inj hsome).symm⟩
      · simp only [hmet, decide_false, Option.getD_none]
        exact ⟨rfl, hcomputed⟩

/-- **Reactable reactions** are those of the order that are reactable one by one. -/
theorem reactableFrom_eq_filter (registry : ReactionMetadataRegistry F) {ids : List ReactionId}
    (hids : ∀ id ∈ ids, ∃ reaction, registry.byId id = some reaction)
    (h : TotalsOf temperature moles gases totals) :
    registry.reactableFrom temperature moles gases ids totals =
      ids.filter fun id => registry.isReactable id temperature moles gases := by
  induction ids generalizing totals with
  | nil => rfl
  | cons id rest ih =>
    rw [List.forall_mem_cons] at hids
    obtain ⟨⟨reaction, hreaction⟩, hrest⟩ := hids
    obtain ⟨hmet, htotals⟩ := reactionConditionsMet_eq h reaction
    unfold reactableFrom
    rw [hreaction]
    dsimp only
    have hreactable : registry.isReactable id temperature moles gases =
        (reactionConditionsMet reaction temperature moles gases {}).1 := by
      unfold isReactable
      rw [hreaction]
    rw [List.filter_cons, hreactable, hmet, ih hrest htotals]

end Totals

/-! ## A run over the order -/

section Visits

variable {F D : Type} [FloatFormat F] [FloatFormat D] [FloatCast F D]

/-- A run over the reactions in order, from one mixture to another: a reaction is asked whether it
is reactable at the mixture that the reactions before it left, a native one runs, and the first one
that the client runs ends it.  The reactions that ran are listed in order. -/
inductive Visits (gases : GasMetadataRegistry F) (reactions : ReactionMetadataRegistry F) :
    List ReactionId → MixtureRecord F → List ReactionId → MixtureRecord F → Prop
  | done (mixture : MixtureRecord F) : Visits gases reactions [] mixture [] mixture
  | unmet {id : ReactionId} {rest ran : List ReactionId} {mixture mixture' : MixtureRecord F}
      (h : reactions.isReactable id mixture.temperature mixture.gases gases = false)
      (hrest : Visits gases reactions rest mixture ran mixture') :
      Visits gases reactions (id :: rest) mixture ran mixture'
  | idle {id : ReactionId} {reaction : ReactionMetadata F} {kind : NativeReactionKind}
      {rest ran : List ReactionId} {mixture mixture' : MixtureRecord F}
      (h : reactions.isReactable id mixture.temperature mixture.gases gases = true)
      (hreaction : reactions.byId id = some reaction) (hkind : reaction.execution = .native kind)
      (hnone : executeNative kind mixture.gases mixture.temperature mixture.volume
        mixture.minimumHeatCapacity gases = .ok none)
      (hrest : Visits gases reactions rest mixture ran mixture') :
      Visits gases reactions (id :: rest) mixture ran mixture'
  | native {id : ReactionId} {reaction : ReactionMetadata F} {kind : NativeReactionKind}
      {outcome : NativeOutcome F} {rest ran : List ReactionId} {mixture mixture' : MixtureRecord F}
      (h : reactions.isReactable id mixture.temperature mixture.gases gases = true)
      (hreaction : reactions.byId id = some reaction) (hkind : reaction.execution = .native kind)
      (hsome : executeNative kind mixture.gases mixture.temperature mixture.volume
        mixture.minimumHeatCapacity gases = .ok (some outcome))
      (hrest : Visits gases reactions rest
        { mixture with gases := outcome.gases, temperature := outcome.temperature } ran mixture') :
      Visits gases reactions (id :: rest) mixture (id :: ran) mixture'
  | client {id : ReactionId} {reaction : ReactionMetadata F} {rest : List ReactionId}
      {mixture : MixtureRecord F}
      (h : reactions.isReactable id mixture.temperature mixture.gases gases = true)
      (hreaction : reactions.byId id = some reaction) (hdm : reaction.execution = .dm) :
      Visits gases reactions (id :: rest) mixture [id] mixture

/-- The reactions that an event says has finished. -/
def finishedReaction : WorldEvent F → Option ReactionId
  | .reactionFinished _ _ reaction _ _ => some reaction
  | _ => none

/-- The reactions of a sequence in order: those that finished, and the one it stopped at. -/
def reactionsOf (sequence : ReactionSequence F) : List ReactionId :=
  sequence.events.filterMap finishedReaction ++
    (sequence.pending.map PendingDmReaction.reaction).toList

theorem recordNative_eq_ok {handle : MixtureHandle} {target : GameplayHandle} {id : ReactionId}
    {kind : NativeReactionKind} {outcome : NativeOutcome F} {threshold : Option F} {cost : F}
    {sequence sequence' : ReactionSequence F}
    (h : DogmosWorld.recordNative handle target id kind outcome threshold cost sequence =
      .ok sequence') :
    sequence'.pending = sequence.pending ∧
    sequence'.mixture = { sequence.mixture with
      gases := outcome.gases, temperature := outcome.temperature } ∧
    sequence'.events.filterMap finishedReaction =
      sequence.events.filterMap finishedReaction ++ [id] := by
  unfold DogmosWorld.recordNative at h
  simp only [bind, Except.bind] at h
  split at h
  · cases h
  · split at h
    · cases h
    · cases h
      refine ⟨rfl, rfl, ?_⟩
      rw [List.filterMap_append]
      split <;> rfl

omit [FloatFormat F] in
theorem pauseSequence_eq_ok {handle : MixtureHandle} {id : ReactionId} {index : Nat}
    {sequence sequence' : ReactionSequence F}
    (h : DogmosWorld.pauseSequence handle id index sequence = .ok sequence') :
    sequence'.mixture = sequence.mixture ∧ sequence'.events = sequence.events ∧
    sequence'.pending.map PendingDmReaction.reaction = some id := by
  unfold DogmosWorld.pauseSequence at h
  simp only [bind, Except.bind] at h
  split at h
  · cases h
  split at h
  · cases h
  split at h
  · cases h
  · cases h
    exact ⟨rfl, rfl, rfl⟩

/-- **The loop visits the reactions in order.** -/
theorem visits_runReactions {gases : GasMetadataRegistry F}
    {reactions : ReactionMetadataRegistry F} {handle : MixtureHandle} {target : GameplayHandle}
    {threshold : Option F} {clock : Nat → F} {order : List (ReactionId × Nat)}
    {sequence sequence' : ReactionSequence F} (hpending : sequence.pending = none)
    (hrun : DogmosWorld.runReactions gases reactions handle target threshold clock order sequence =
      .ok sequence') :
    ∃ ran, Visits gases reactions (order.map Prod.fst) sequence.mixture ran sequence'.mixture ∧
      reactionsOf sequence' = reactionsOf sequence ++ ran := by
  induction order generalizing sequence with
  | nil =>
    unfold DogmosWorld.runReactions at hrun
    simp only [bind, Except.bind] at hrun
    split at hrun
    · cases hrun
    · cases hrun
      exact ⟨[], .done _, (List.append_nil _).symm⟩
  | cons entry rest ih =>
    obtain ⟨id, index⟩ := entry
    unfold DogmosWorld.runReactions at hrun
    dsimp only at hrun
    rcases hmet : reactions.isReactable id sequence.mixture.temperature sequence.mixture.gases gases
    · rw [hmet] at hrun
      obtain ⟨ran, hvisits, hran⟩ := ih hpending hrun
      exact ⟨ran, .unmet hmet hvisits, hran⟩
    · rw [hmet] at hrun
      rw [if_neg (by simp)] at hrun
      rcases hreaction : reactions.byId id with _ | reaction
      · rw [isReactable, hreaction] at hmet
        cases hmet
      · rw [hreaction] at hrun
        dsimp only at hrun
        rcases hexecution : reaction.execution with kind | _
        · rw [hexecution] at hrun
          simp only [bind, Except.bind] at hrun
          rcases hnative : executeNative kind sequence.mixture.gases sequence.mixture.temperature
            sequence.mixture.volume sequence.mixture.minimumHeatCapacity gases with
            error | _ | outcome
          · rw [hnative] at hrun
            cases hrun
          · rw [hnative] at hrun
            obtain ⟨ran, hvisits, hran⟩ := ih hpending hrun
            exact ⟨ran, .idle hmet hreaction hexecution hnative hvisits, hran⟩
          · rw [hnative] at hrun
            dsimp only [Except.mapError] at hrun
            rcases hrecord : DogmosWorld.recordNative handle target id kind outcome threshold
              (clock index) sequence with error | recorded
            · rw [hrecord] at hrun
              cases hrun
            · rw [hrecord] at hrun
              obtain ⟨hsame, hmixture, hevents⟩ := recordNative_eq_ok hrecord
              obtain ⟨ran, hvisits, hran⟩ := ih (hsame.trans hpending) hrun
              rw [hmixture] at hvisits
              refine ⟨id :: ran, .native hmet hreaction hexecution hnative hvisits, ?_⟩
              rw [hran, reactionsOf, reactionsOf, hevents, hsame, hpending]
              simp
        · rw [hexecution] at hrun
          obtain ⟨hmixture, hevents, hstopped⟩ := pauseSequence_eq_ok hrun
          refine ⟨[id], ?_, ?_⟩
          · rw [hmixture]
            exact .client hmet hreaction hexecution
          · rw [reactionsOf, reactionsOf, hevents, hstopped, hpending]
            simp

/-- A sequence visits the reactions from its start in the order of the registry. -/
theorem visits_evaluateReactionSequence {w : DogmosWorld F} {gases : GasMetadataRegistry F}
    {reactions : ReactionMetadataRegistry F} {target : GameplayHandle} {handle : MixtureHandle}
    {startIndex initialFlags : UInt32} {threshold : Option F} {clock : Nat → F}
    {mixture : MixtureRecord F} {sequence : ReactionSequence F}
    (hgases : w.gasRegistry = some gases) (hreactions : w.reactionRegistry = some reactions)
    (hmixture : w.requireHandle handle = .ok mixture) (hmutable : mixture.immutable = false)
    (hrun : w.evaluateReactionSequence target handle startIndex initialFlags threshold clock =
      .ok sequence) :
    Visits gases reactions (reactions.priorityOrder.drop startIndex.toNat) mixture
      (reactionsOf sequence) sequence.mixture := by
  unfold DogmosWorld.evaluateReactionSequence DogmosWorld.requireGases
    DogmosWorld.requireReactions at hrun
  rw [hgases, hreactions, hmixture] at hrun
  simp only [bind, Except.bind, pure, Except.pure, hmutable, Bool.false_eq_true, if_false] at hrun
  obtain ⟨ran, hvisits, hran⟩ := visits_runReactions rfl hrun
  rw [List.map_drop, List.zipIdx_map_fst] at hvisits
  rw [hran]
  exact hvisits

end Visits

/-! ## What a registry promises -/

/-- **Registries and their order.**  Exactly the acceptable lists are registered, in any order; the
order of a registry holds every id once and goes down in priority, the reactable reactions are
those of it that are reactable one by one, and a sequence visits the reactions in it. -/
theorem reaction_registry (list : List (ReactionMetadata F32)) (gases : GasMetadataRegistry F32) :
    ((∃ registry, tryNew list gases = .ok registry) ↔ Acceptable list gases) ∧
    (∀ list', list.Perm list' → ((∃ registry, tryNew list gases = .ok registry) ↔
      ∃ registry, tryNew list' gases = .ok registry)) ∧
    ∀ registry, tryNew list gases = .ok registry →
      registry.priorityOrder.Perm (list.map ReactionMetadata.id) ∧
      (registry.priorityOrder.Pairwise fun a b =>
        priorityOf registry.reactions b < priorityOf registry.reactions a) ∧
      (∀ (temperature : F32) (moles : Gases F32) (gases : GasMetadataRegistry F32),
        registry.reactableIds temperature moles gases =
          registry.priorityOrder.filter fun id =>
            registry.isReactable id temperature moles gases) ∧
      ∀ (w : DogmosWorld F32) (gases : GasMetadataRegistry F32) (target : GameplayHandle)
        (handle : MixtureHandle) (startIndex initialFlags : UInt32) (threshold : Option F32)
        (clock : Nat → F32) (mixture : MixtureRecord F32) (sequence : ReactionSequence F32),
        w.gasRegistry = some gases → w.reactionRegistry = some registry →
        w.requireHandle handle = .ok mixture → mixture.immutable = false →
        w.evaluateReactionSequence target handle startIndex initialFlags threshold clock =
          .ok sequence →
        Visits gases registry (registry.priorityOrder.drop startIndex.toNat) mixture
          (reactionsOf sequence) sequence.mixture := by
  refine ⟨accepts_iff, fun list' hperm => ?_, fun registry h => ⟨?_, ?_, ?_, ?_⟩⟩
  · rw [accepts_iff, accepts_iff]
    exact ⟨fun h => h.perm hperm, fun h => h.perm hperm.symm⟩
  · obtain ⟨hsorted, -, -, horder⟩ := tryNew_ok h
    rw [horder]
    refine (List.perm_insertionSort _ _).trans ?_
    rw [hsorted]
    exact (perm_sortedById list).map _
  · exact descending_of_tryNew h
  · intro temperature moles gases
    refine reactableFrom_eq_filter registry (fun id hid => ?_) totalsOf_none
    obtain ⟨reaction, hreaction, rfl⟩ := ((wellFormed_of_tryNew h).order id).1 hid
    obtain ⟨i, hi⟩ := List.mem_iff_getElem?.1 hreaction
    refine ⟨reaction, ?_⟩
    rw [byId, (wellFormed_of_tryNew h).numbered i reaction hi, hi]
  · intro w gases target handle startIndex initialFlags threshold clock mixture sequence hgases
      hreactions hmixture hmutable hrun
    exact visits_evaluateReactionSequence hgases hreactions hmixture hmutable hrun

/-- A gas. -/
def fireGas (id : GasId) (key : String) : GasMetadata F32 :=
  { id, key, name := key, flags := 0, specificHeat := 20.0, fusionPower := 0.0
    molesVisible := none, enthalpy := 0.0, fireRadiationReleased := 0.0, fireRole := .none
    fireProducts := none }

def fireGases : List (GasMetadata F32) :=
  [fireGas ⟨0⟩ "o2", fireGas ⟨1⟩ "hydrogen", fireGas ⟨2⟩ "water_vapor"]

/-- A hydrogen fire, a reaction that needs more heat, and one of the client: the last of the list is
the second in priority, and the first one is last. -/
def fireReactions : List (ReactionMetadata F32) :=
  [{ id := ⟨0⟩, key := "late", priority := 1.0, minimumTemperature := none
     maximumTemperature := none, minimumEnergy := none, minimumFireReagents := none
     gasRequirements := [], execution := .dm },
   { id := ⟨1⟩, key := "fire", priority := 3.0, minimumTemperature := none
     maximumTemperature := none, minimumEnergy := none, minimumFireReagents := none
     gasRequirements := [⟨⟨1⟩, 0.5⟩], execution := .native .hydrogen },
   { id := ⟨2⟩, key := "hot", priority := 2.0, minimumTemperature := some 5000.0
     maximumTemperature := none, minimumEnergy := none, minimumFireReagents := none
     gasRequirements := [], execution := .dm }]

/-- A world with these registries, whose mixture burns. -/
def fireWorld (gases : GasMetadataRegistry F32) (registry : ReactionMetadataRegistry F32) :
    DogmosWorld F32 :=
  { System.run (DogmosWorld.step (D := F64)) (DogmosWorld.newWithCapacities 0 0 100000 4 4)
      [.installGases fireGases, .applyLifecycle [⟨.register, ⟨0, 1⟩⟩],
        .applyCommand (.setMoles ⟨0, 1⟩ ⟨0⟩ 1.0) fun _ => 0.0,
        .applyCommand (.setMoles ⟨0, 1⟩ ⟨1⟩ 1.0) fun _ => 0.0] with
    gasRegistry := some gases
    reactionRegistry := some registry }

/-- What is reactable in the mixture, and what its sequence runs. -/
def firesSeen : Option (Bool × List ReactionId × List ReactionId) := do
  let gases ← (GasMetadataRegistry.tryNew fireGases).toOption
  let registry ← (tryNew fireReactions gases).toOption
  let w := fireWorld gases registry
  let mixture ← (w.requireHandle ⟨0, 1⟩).toOption
  let sequence ←
    (w.evaluateReactionSequence ⟨0, 1⟩ ⟨0, 1⟩ 0 0 none fun _ => 0.0).toOption
  return (mixture.immutable, registry.reactableIds mixture.temperature mixture.gases gases,
    reactionsOf sequence)

/-- The registries of the two lists, and the mixture and the sequence they lead to. -/
theorem exists_of_firesSeen {immutable : Bool} {ids ran : List ReactionId}
    (h : firesSeen = some (immutable, ids, ran)) : ∃ gases registry mixture sequence,
      tryNew fireReactions gases = .ok registry ∧
      (fireWorld gases registry).requireHandle ⟨0, 1⟩ = .ok mixture ∧
      (fireWorld gases registry).evaluateReactionSequence ⟨0, 1⟩ ⟨0, 1⟩ 0 0 none (fun _ => 0.0) =
        .ok sequence ∧
      mixture.immutable = immutable ∧
      registry.reactableIds mixture.temperature mixture.gases gases = ids ∧
      reactionsOf sequence = ran := by
  unfold firesSeen at h
  simp only [bind, Option.bind_eq_some_iff] at h
  obtain ⟨gases, -, registry, hregistry, mixture, hmixture, sequence, hsequence, hseen⟩ := h
  cases hseen
  exact ⟨gases, registry, mixture, sequence, Exec.eq_ok_of_toOption hregistry,
    Exec.eq_ok_of_toOption hmixture, Exec.eq_ok_of_toOption hsequence, rfl, rfl, rfl⟩

/-- Two of the three are reactable and run: the fire, and then the reaction of the client. -/
theorem reaction_registry_fireReactions : ∃ (gases : GasMetadataRegistry F32)
    (registry : ReactionMetadataRegistry F32) (mixture mixture' : MixtureRecord F32),
    registry.priorityOrder.Perm [⟨0⟩, ⟨1⟩, ⟨2⟩] ∧
      (registry.priorityOrder.Pairwise fun a b =>
        priorityOf registry.reactions b < priorityOf registry.reactions a) ∧
      (registry.priorityOrder.filter fun id =>
        registry.isReactable id mixture.temperature mixture.gases gases) = [⟨1⟩, ⟨0⟩] ∧
      Visits gases registry registry.priorityOrder mixture [⟨1⟩, ⟨0⟩] mixture' := by
  obtain ⟨gases, registry, mixture, sequence, hregistry, hmixture, hsequence, hmutable, hids,
    hran⟩ := exists_of_firesSeen
      (show firesSeen = some (false, [⟨1⟩, ⟨0⟩], [⟨1⟩, ⟨0⟩]) by decide +kernel)
  obtain ⟨hperm, hdescending, hfilter, hvisits⟩ :=
    (reaction_registry fireReactions gases).2.2 registry hregistry
  rw [hfilter] at hids
  have hvisited := hvisits (fireWorld gases registry) gases ⟨0, 1⟩ ⟨0, 1⟩ 0 0 none (fun _ => 0.0)
    mixture sequence rfl rfl hmixture hmutable hsequence
  rw [hran] at hvisited
  exact ⟨gases, registry, mixture, sequence.mixture, hperm, hdescending, hids, hvisited⟩

end ReactionMetadataRegistry

end Dogmos
