import Dogmos.Exact.Registry
import Dogmos.Legacy.Cache
import Dogmos.Legacy.Reactions
import Dogmos.Runs.ReactionOrder

/-!
# Which reactions the two backends select

The in-process backend tests an energy requirement against a heat capacity raised to the mixture's
minimum; the service tests it against the heat capacity of the gases alone.  All other conditions,
and the order of the reactions, are the same.

* `downwards_getReactionInfo` — both backends try the reactions in the same order.
* `getBurnability_eq` — the fire reagents of a mixture are the same.
* `selected_agree_iff` — the backends select the same reactions exactly where no energy requirement
  falls between the two thermal energies.
-/

namespace Dogmos

namespace Legacy

open Mixture

variable {gases : GasMetadataRegistry ℚ} {reactions : ReactionMetadataRegistry ℚ}

/-! ## One table for both backends -/

/-- The fire role of a gas as the in-process backend keeps it. -/
def fireInfoOf : GasFireRole ℚ → FireInfo ℚ
  | .oxidizer minimumTemperature power => .oxidation minimumTemperature power
  | .fuel minimumTemperature burnRate => .fuel minimumTemperature burnRate
  | .none => .none

/-- A registered gas as the in-process backend keeps it. -/
def gasTypeOf (gas : GasMetadata ℚ) : GasType ℚ :=
  { id := gas.key, specificHeat := gas.specificHeat, fireInfo := fireInfoOf gas.fireRole }

/-- The gases of a registry as the in-process backend keeps them. -/
def tableOf (gases : GasMetadataRegistry ℚ) : GasTable ℚ := gases.gases.map gasTypeOf

/-- A registered reaction as the in-process backend keeps it, which hashes the key. -/
def reactionOf (hash : String → UInt64) (reaction : ReactionMetadata ℚ) : Reaction ℚ :=
  { id := hash reaction.key
    priority := reaction.priority
    minTempReq := reaction.minimumTemperature
    maxTempReq := reaction.maximumTemperature
    minEnerReq := reaction.minimumEnergy
    minFireReq := reaction.minimumFireReagents
    minGasReqs := reaction.gasRequirements.map fun requirement =>
      (requirement.gas.index, requirement.minimumMoles) }

/-! ## One mixture for both backends -/

section Sums

variable {α β : Type}

/-- A fold over two lists in step does not see zeros at the end of the first. -/
theorem foldl_zip_congr {f : β → ℚ × α → β} (hzero : ∀ acc a, f acc (0, a) = acc)
    (entries : List α) : ∀ {xs ys : List ℚ} (acc : β),
    (∀ i : Nat, xs[i]?.getD 0 = ys[i]?.getD 0) →
      (xs.zip entries).foldl f acc = (ys.zip entries).foldl f acc := by
  induction entries with
  | nil =>
    intro xs ys acc _
    rw [List.zip_nil_right, List.zip_nil_right]
  | cons entry rest ih =>
    intro xs ys acc h
    have htail : ∀ i : Nat, xs.tail[i]?.getD 0 = ys.tail[i]?.getD 0 := by
      intro i
      rw [List.getElem?_tail, List.getElem?_tail]
      exact h (i + 1)
    have hstep : ∀ zs : List ℚ, (zs.zip (entry :: rest)).foldl f acc =
        (zs.tail.zip rest).foldl f (f acc (zs[0]?.getD 0, entry)) := by
      intro zs
      cases zs with
      | nil => simp [hzero]
      | cons z zs => rfl
    rw [hstep xs, hstep ys, h 0]
    exact ih _ htail

end Sums

section Shared

variable {m : Mixture ℚ} {moles : Gases ℚ}

theorem toList_getD (moles : Gases ℚ) (i : Nat) : moles.toList[i]?.getD 0 = moles.at i := by
  rw [Vector.getElem?_toList, Gases.at, exact_zero]

/-- The heat capacity of the gases is the one the service computes. -/
theorem gasHeatCapacity_eq_fold (hamounts : ∀ i, m.getMoles i = moles.at i)
    (heats : List ℚ) (table : GasTable ℚ) (htable : table.specificHeats = heats) :
    m.gasHeatCapacity table = foldHeatCapacity moles heats := by
  rw [gasHeatCapacity, foldHeatCapacity, htable]
  have hsame : ∀ i : Nat, m.moles[i]?.getD 0 = moles.toList[i]?.getD 0 := by
    intro i
    rw [toList_getD, ← hamounts, getMoles_eq]
  refine foldl_zip_congr (fun acc heat => ?_) heats _ hsame
  dsimp only
  rw [Exact.mulAdd_eq, mul_zero, zero_add]

theorem addBurnability_gasTypeOf (temperature : ℚ) (acc : ℚ × ℚ) (amount : ℚ)
    (gas : GasMetadata ℚ) : addBurnability temperature acc (amount, gasTypeOf gas) =
      addFireReagents temperature acc (amount, gas) := by
  unfold addBurnability addFireReagents
  dsimp only [gasTypeOf]
  have hmoles : (minimumFireMoles : ℚ) = gasMinMoles := rfl
  rw [hmoles]
  by_cases htrace : amount ≤ gasMinMoles
  · rw [if_pos htrace, if_neg (not_lt.2 htrace)]
  · rw [if_neg htrace, if_pos (not_le.1 htrace)]
    cases gas.fireRole <;> rfl

/-- **The fire reagents** of a mixture are those the service computes. -/
theorem getBurnability_eq (hamounts : ∀ i, m.getMoles i = moles.at i) :
    m.getBurnability (tableOf gases) =
      (moles.toList.zip gases.gases).foldl (addFireReagents m.temperature) (0.0, 0.0) := by
  have hsame : ∀ i : Nat, m.moles[i]?.getD 0 = moles.toList[i]?.getD 0 := by
    intro i
    rw [toList_getD, ← hamounts, getMoles_eq]
  have hzero : ∀ acc (gas : GasMetadata ℚ), addFireReagents m.temperature acc (0, gas) = acc := by
    intro acc gas
    refine if_pos ?_
    norm_num [minimumFireMoles]
  rw [getBurnability, tableOf, List.zip_map_right, List.foldl_map]
  simp only [Prod.map, id, addBurnability_gasTypeOf]
  exact foldl_zip_congr hzero gases.gases _ hsame

end Shared

/-! ## One order for both backends -/

section Order

instance : Std.TransCmp (FloatFormat.totalCmp : ℚ → ℚ → Ordering) :=
  inferInstanceAs (Std.TransCmp (compare : ℚ → ℚ → Ordering))

instance : Std.LawfulEqCmp (FloatFormat.totalCmp : ℚ → ℚ → Ordering) :=
  inferInstanceAs (Std.LawfulEqCmp (compare : ℚ → ℚ → Ordering))

variable {list : List (ReactionMetadata ℚ)} {hash : String → UInt64}

/-- The table finds what it is built from, where no priority repeats. -/
theorem getElem?_getReactionInfo {reactionList : List (Reaction ℚ)}
    (h : reactionList.Pairwise fun a b => a.priority ≠ b.priority) (priority : ℚ)
    (reaction : Reaction ℚ) : (getReactionInfo reactionList)[priority]? = some reaction ↔
      reaction ∈ reactionList ∧ reaction.priority = priority := by
  have hfold : ∀ (rest : List (Reaction ℚ)) (cache : ReactionInfo ℚ),
      (rest.Pairwise fun a b => a.priority ≠ b.priority) →
      (∀ reaction ∈ rest, cache[reaction.priority]? = none) →
      ((rest.foldl (fun reactionCache reaction =>
        if reactionCache.contains reaction.priority then reactionCache
        else reactionCache.insert reaction.priority reaction) cache)[priority]? = some reaction ↔
      cache[priority]? = some reaction ∨ reaction ∈ rest ∧ reaction.priority = priority) := by
    intro rest
    induction rest with
    | nil => simp
    | cons head rest ih =>
      intro cache hpairwise hnew
      rw [List.pairwise_cons] at hpairwise
      rw [List.forall_mem_cons] at hnew
      have habsent : cache.contains head.priority = false := by
        rw [Std.TreeMap.contains_eq_isSome_getElem?, hnew.1]
        rfl
      rw [List.foldl_cons, if_neg (by rw [habsent]; exact Bool.false_ne_true), ih _ hpairwise.2]
      · rw [Std.TreeMap.getElem?_insert, List.mem_cons]
        by_cases hhead : head.priority = priority
        · subst hhead
          rw [if_pos Std.ReflCmp.compare_self, hnew.1]
          constructor
          · rintro (heq | ⟨hmem, heq⟩)
            · cases heq
              exact .inr ⟨.inl rfl, rfl⟩
            · exact .inr ⟨.inr hmem, heq⟩
          · rintro (habsurd | ⟨rfl | hmem, heq⟩)
            · cases habsurd
            · exact .inl rfl
            · exact .inr ⟨hmem, heq⟩
        · rw [if_neg fun heq => hhead (Std.LawfulEqCmp.eq_of_compare heq)]
          constructor
          · rintro (hcached | ⟨hmem, heq⟩)
            · exact .inl hcached
            · exact .inr ⟨.inr hmem, heq⟩
          · rintro (hcached | ⟨rfl | hmem, heq⟩)
            · exact .inl hcached
            · exact absurd heq hhead
            · exact .inr ⟨hmem, heq⟩
      · intro other hother
        rw [Std.TreeMap.getElem?_insert, if_neg, hnew.2 other hother]
        exact fun heq => hpairwise.1 other hother (Std.LawfulEqCmp.eq_of_compare heq)
  rw [getReactionInfo, hfold reactionList ∅ h (by simp)]
  simp

/-- The values of the table are the reactions, the greatest priority first. -/
theorem downwards_getReactionInfo {reactionList ordered : List (Reaction ℚ)}
    (hperm : ordered.Perm reactionList)
    (hordered : ordered.Pairwise fun a b => b.priority < a.priority) :
    (getReactionInfo reactionList).downwards = ordered := by
  have hdistinct : reactionList.Pairwise fun a b => a.priority ≠ b.priority :=
    hperm.pairwise (hordered.imp fun h => h.ne') fun h => h.symm
  have hfinds := getElem?_getReactionInfo hdistinct
  have hentries : ∀ entry ∈ (getReactionInfo reactionList).toList,
      entry.2 ∈ reactionList ∧ entry.2.priority = entry.1 := by
    rintro ⟨priority, reaction⟩ hentry
    exact (hfinds priority reaction).1 (Std.TreeMap.mem_toList_iff_getElem?_eq_some.1 hentry)
  have hdown : (getReactionInfo reactionList).downwards.Pairwise
      fun a b => b.priority < a.priority := by
    rw [ReactionInfo.downwards, List.pairwise_reverse, List.pairwise_map]
    refine (Std.TreeMap.ordered_keys_toList (t := getReactionInfo reactionList)).imp_of_mem ?_
    intro a b ha hb hab
    rw [(hentries a ha).2, (hentries b hb).2]
    exact compare_lt_iff_lt.1 hab
  have hnodup : ∀ {l : List (Reaction ℚ)}, (l.Pairwise fun a b => b.priority < a.priority) →
      l.Nodup := fun h => h.imp fun {a b} hlt (heq : a = b) => by
      rw [heq] at hlt
      exact lt_irrefl _ hlt
  have hperm' : (getReactionInfo reactionList).downwards.Perm ordered := by
    rw [List.perm_ext_iff_of_nodup (hnodup hdown) (hnodup hordered)]
    intro reaction
    rw [hperm.mem_iff, ReactionInfo.downwards, List.mem_reverse, List.mem_map]
    constructor
    · rintro ⟨entry, hentry, rfl⟩
      exact (hentries entry hentry).1
    · intro hmem
      exact ⟨(reaction.priority, reaction),
        Std.TreeMap.mem_toList_iff_getElem?_eq_some.2 ((hfinds _ _).2 ⟨hmem, rfl⟩), rfl⟩
  exact hperm'.eq_of_pairwise (fun a b _ _ hab hba => absurd (hab.trans hba) (lt_irrefl _)) hdown
    hordered

/-- The order of a registry goes down in priority. -/
theorem descending_order (h : ReactionMetadataRegistry.tryNew list gases = .ok reactions) :
    reactions.priorityOrder.Pairwise fun a b =>
      ReactionMetadataRegistry.priorityOf reactions.reactions b <
        ReactionMetadataRegistry.priorityOf reactions.reactions a := by
  have hformed := ReactionMetadataRegistry.wellFormed_of_tryNew h
  obtain ⟨-, -, ⟨idsByKey, hkeys⟩, horder⟩ := ReactionMetadataRegistry.tryNew_ok h
  obtain ⟨-, hdistinct⟩ := ReactionMetadataRegistry.collectReactionKeys_ok hkeys
  generalize hpriority : ReactionMetadataRegistry.priorityOf reactions.reactions = priority at *
  have hle : ∀ a b : ℚ, (FloatFormat.totalCmp a b).isLE = true ↔ a ≤ b := by
    intro a b
    rw [← Ordering.ne_gt_iff_isLE]
    exact compare_le_iff_le
  simp only [hle] at horder
  have hsorted : reactions.priorityOrder.Pairwise fun left right =>
      priority right ≤ priority left := by
    rw [horder]
    have htotal : Std.Total fun left right : ReactionId => priority right ≤ priority left :=
      ⟨fun left right => le_total _ _⟩
    have htrans : IsTrans ReactionId fun left right => priority right ≤ priority left :=
      ⟨fun a b c hab hbc => hbc.trans hab⟩
    exact List.pairwise_insertionSort _ _
  refine List.Pairwise.imp_of_mem (fun {a b} ha hb hab => ?_) (hsorted.and hformed.nodup)
  obtain ⟨left, hleft, rfl⟩ := (hformed.order a).1 ha
  obtain ⟨right, hright, rfl⟩ := (hformed.order b).1 hb
  have hsymm : Std.Symm fun a b : ReactionMetadata ℚ =>
      ReactionMetadataRegistry.priorityBits a ≠ ReactionMetadataRegistry.priorityBits b :=
    ⟨fun _ _ hne => Ne.symm hne⟩
  have hbits := hdistinct.forall hleft hright fun heq => hab.2 (congrArg _ heq)
  refine lt_of_le_of_ne hab.1 fun heq => hbits ?_
  rw [← hpriority, hformed.priorityOf_id hleft, hformed.priorityOf_id hright] at heq
  rw [ReactionMetadataRegistry.priorityBits, ReactionMetadataRegistry.priorityBits, heq]

/-- The reactions of a registry in its order. -/
def inOrder (reactions : ReactionMetadataRegistry ℚ) : List (ReactionMetadata ℚ) :=
  reactions.priorityOrder.filterMap reactions.byId

theorem byId_of_mem (h : ReactionMetadataRegistry.tryNew list gases = .ok reactions)
    {reaction : ReactionMetadata ℚ} (hmem : reaction ∈ reactions.reactions) :
    reactions.byId reaction.id = some reaction := by
  obtain ⟨i, hi⟩ := List.mem_iff_getElem?.1 hmem
  rw [ReactionMetadataRegistry.byId,
    (ReactionMetadataRegistry.wellFormed_of_tryNew h).numbered i reaction hi, hi]

theorem perm_inOrder (h : ReactionMetadataRegistry.tryNew list gases = .ok reactions) :
    (inOrder reactions).Perm list := by
  obtain ⟨hreactions, -, -, horder⟩ := ReactionMetadataRegistry.tryNew_ok h
  have hids : (reactions.reactions.map ReactionMetadata.id).filterMap reactions.byId =
      reactions.reactions := by
    rw [List.filterMap_map, List.filterMap_congr (g := some), List.filterMap_some]
    exact fun reaction hmem => byId_of_mem h hmem
  have hsorted := List.perm_insertionSort (fun left right =>
    (FloatFormat.totalCmp (ReactionMetadataRegistry.priorityOf reactions.reactions right)
      (ReactionMetadataRegistry.priorityOf reactions.reactions left)).isLE)
    (reactions.reactions.map ReactionMetadata.id)
  rw [← horder] at hsorted
  have hperm := hsorted.filterMap reactions.byId
  rw [hids, hreactions] at hperm
  exact hperm.trans (List.perm_insertionSort _ _)

theorem descending_inOrder (h : ReactionMetadataRegistry.tryNew list gases = .ok reactions) :
    (inOrder reactions).Pairwise fun a b => b.priority < a.priority := by
  have hpriority : ∀ {id : ReactionId} {reaction : ReactionMetadata ℚ},
      reactions.byId id = some reaction →
        ReactionMetadataRegistry.priorityOf reactions.reactions id = reaction.priority := by
    intro id reaction hreaction
    rw [ReactionMetadataRegistry.byId] at hreaction
    rw [ReactionMetadataRegistry.priorityOf, hreaction]
    rfl
  refine List.pairwise_filterMap.2 ((descending_order h).imp fun hab a ha b hb => ?_)
  rwa [← hpriority ha, ← hpriority hb]

end Order

/-! ## One choice for both backends -/

section Choice

variable {list : List (ReactionMetadata ℚ)} {m : Mixture ℚ} {moles : Gases ℚ}

/-- All conditions of a reaction but the one on energy. -/
structure MetButEnergy (gases : GasMetadataRegistry ℚ) (temperature : ℚ) (moles : Gases ℚ)
    (reaction : ReactionMetadata ℚ) : Prop where
  warm : ∀ minimum ∈ reaction.minimumTemperature, minimum ≤ temperature
  cool : ∀ maximum ∈ reaction.maximumTemperature, temperature ≤ maximum
  supplied : ∀ requirement ∈ reaction.gasRequirements,
    requirement.minimumMoles ≤ moles.at requirement.gas.index
  flammable : ∀ minimum ∈ reaction.minimumFireReagents,
    minimum ≤ reactionFireReagents temperature moles gases

theorem all_decide_iff {α : Type} (o : Option α) (P : α → Prop) [DecidablePred P] :
    (o.all fun a => decide (P a)) = true ↔ ∀ a ∈ o, P a := by
  cases o <;> simp

theorem conditionsMet_iff (reaction : ReactionMetadata ℚ) (temperature : ℚ) (moles : Gases ℚ) :
    (reactionConditionsMet reaction temperature moles gases {}).1 = true ↔
      MetButEnergy gases temperature moles reaction ∧
      ∀ energy ∈ reaction.minimumEnergy,
        energy ≤ foldHeatCapacity moles gases.specificHeats * temperature := by
  have hothers : MetButEnergy gases temperature moles reaction ↔
      ((reaction.minimumTemperature.all (fun minimum => decide (minimum ≤ temperature)) = true ∧
      reaction.maximumTemperature.all (fun maximum => decide (temperature ≤ maximum)) = true) ∧
      reaction.gasRequirements.all (fun requirement =>
        decide (requirement.minimumMoles ≤ moles.at requirement.gas.index)) = true) ∧
      ∀ minimum ∈ reaction.minimumFireReagents,
        minimum ≤ reactionFireReagents temperature moles gases := by
    rw [all_decide_iff, all_decide_iff, List.all_eq_true]
    simp only [decide_eq_true_eq]
    exact ⟨fun h => ⟨⟨⟨h.warm, h.cool⟩, h.supplied⟩, h.flammable⟩,
      fun h => ⟨h.1.1.1, h.1.1.2, h.1.2, h.2⟩⟩
  rw [hothers]
  unfold reactionConditionsMet
  split
  · next hunmet =>
    refine iff_of_false Bool.false_ne_true fun h => ?_
    obtain ⟨⟨⟨⟨hwarm, hcool⟩, hsupplied⟩, -⟩, -⟩ := h
    rw [hwarm, hcool, hsupplied] at hunmet
    exact Bool.false_ne_true hunmet
  · next hmet =>
    simp only [Bool.or_eq_true, Bool.not_eq_true', not_or, Bool.not_eq_false] at hmet
    have henergy : foldHeatCapacity moles gases.specificHeats * temperature =
        reactionThermalEnergy temperature moles gases := rfl
    rw [iff_true_intro hmet, true_and, henergy]
    rcases reaction.minimumEnergy with _ | energy
    · rcases reaction.minimumFireReagents with _ | reagents <;> simp
    · by_cases hmet : energy ≤ reactionThermalEnergy temperature moles gases
      · rcases reaction.minimumFireReagents with _ | reagents <;> simp [hmet]
      · simp [hmet]

theorem checkConditions_iff (hash : String → UInt64) (reaction : ReactionMetadata ℚ)
    (hgases : gases.specificHeats = gases.gases.map GasMetadata.specificHeat)
    (hamounts : ∀ i, m.getMoles i = moles.at i) (hcoherent : Coherent (tableOf gases) m) :
    (reactionOf hash reaction).checkConditions m (tableOf gases) = true ↔
      MetButEnergy gases m.temperature moles reaction ∧
      ∀ energy ∈ reaction.minimumEnergy,
        energy ≤ max (foldHeatCapacity moles gases.specificHeats) m.minHeatCapacity *
          m.temperature := by
  have hheat : m.thermalEnergy (tableOf gases) =
      max (foldHeatCapacity moles gases.specificHeats) m.minHeatCapacity * m.temperature := by
    have hcapacity : m.heatCapacity (tableOf gases) = m.slowHeatCapacity (tableOf gases) :=
      hcoherent
    have htable : (tableOf gases).specificHeats = gases.specificHeats := by
      rw [hgases, GasTable.specificHeats, tableOf, List.map_map]
      rfl
    rw [thermalEnergy, hcapacity, slowHeatCapacity_eq, gasHeatCapacity_eq_fold hamounts _ _ htable]
  have hfire : fmin (m.getBurnability (tableOf gases)).1 (m.getBurnability (tableOf gases)).2 =
      reactionFireReagents m.temperature moles gases := by
    rw [getBurnability_eq hamounts]
    rfl
  have hgas : (reactionOf hash reaction).minGasReqs.all
      (fun requirement => decide (requirement.2 ≤ m.getMoles requirement.1)) = true ↔
      ∀ requirement ∈ reaction.gasRequirements,
        requirement.minimumMoles ≤ moles.at requirement.gas.index := by
    simp only [reactionOf, List.all_map, List.all_eq_true, Function.comp_apply, decide_eq_true_eq,
      hamounts]
  unfold Reaction.checkConditions
  dsimp only
  rw [Bool.and_eq_true, Bool.and_eq_true, Bool.and_eq_true, Bool.and_eq_true, all_decide_iff,
    all_decide_iff, all_decide_iff, all_decide_iff, hheat, hfire]
  constructor
  · rintro ⟨⟨⟨⟨hwarm, hcool⟩, hsupplied⟩, henergy⟩, hflammable⟩
    exact ⟨⟨hwarm, hcool, hgas.1 hsupplied, hflammable⟩, henergy⟩
  · rintro ⟨hothers, henergy⟩
    exact ⟨⟨⟨⟨hothers.warm, hothers.cool⟩, hgas.2 hothers.supplied⟩, henergy⟩, hothers.flammable⟩

/-- Two filters, the second one weaker, keep the same exactly if they agree. -/
theorem map_filter_eq_iff {α β : Type} {l : List α} {p q : α → Bool} (f : α → β)
    (h : ∀ a ∈ l, p a = true → q a = true) :
    (l.filter p).map f = (l.filter q).map f ↔ ∀ a ∈ l, q a = true → p a = true := by
  have hfilter : l.filter p = (l.filter q).filter p := by
    rw [List.filter_filter]
    refine List.filter_congr fun a ha => ?_
    have := h a ha
    cases hp : p a <;> simp_all
  constructor
  · intro heq a ha hq
    have hlength := congrArg List.length heq
    rw [List.length_map, List.length_map, hfilter, List.length_filter_eq_length_iff] at hlength
    exact hlength a (List.mem_filter.2 ⟨ha, hq⟩)
  · intro hall
    refine congrArg _ (List.filter_congr fun a ha => ?_)
    exact Bool.eq_iff_iff.2 ⟨h a ha, hall a ha⟩

/-- The hashed keys of the reactions the service selects, in its order. -/
def selected (hash : String → UInt64) (reactions : ReactionMetadataRegistry ℚ) (temperature : ℚ)
    (moles : Gases ℚ) (gases : GasMetadataRegistry ℚ) : List UInt64 :=
  (reactions.reactableIds temperature moles gases).filterMap fun id =>
    (reactions.byId id).map fun reaction => hash reaction.key

theorem selected_eq (hash : String → UInt64)
    (h : ReactionMetadataRegistry.tryNew list gases = .ok reactions) (temperature : ℚ)
    (moles : Gases ℚ) : selected hash reactions temperature moles gases =
      ((inOrder reactions).filter fun reaction =>
        (reactionConditionsMet reaction temperature moles gases {}).1).map fun reaction =>
          hash reaction.key := by
  have hformed := ReactionMetadataRegistry.wellFormed_of_tryNew h
  have hids : ∀ id ∈ reactions.priorityOrder, ∃ reaction, reactions.byId id = some reaction := by
    intro id hid
    obtain ⟨reaction, hmem, rfl⟩ := (hformed.order id).1 hid
    exact ⟨reaction, byId_of_mem h hmem⟩
  rw [selected, ReactionMetadataRegistry.reactableIds,
    ReactionMetadataRegistry.reactableFrom_eq_filter reactions hids
      ReactionMetadataRegistry.totalsOf_none, inOrder]
  clear hformed
  generalize reactions.priorityOrder = order at hids ⊢
  induction order with
  | nil => rfl
  | cons id rest ih =>
    rw [List.forall_mem_cons] at hids
    obtain ⟨⟨reaction, hreaction⟩, hrest⟩ := hids
    have hreactable : reactions.isReactable id temperature moles gases =
        (reactionConditionsMet reaction temperature moles gases {}).1 := by
      rw [ReactionMetadataRegistry.isReactable, hreaction]
    rw [List.filter_cons, List.filterMap_cons, hreaction, List.filter_cons, hreactable]
    split
    · rw [List.filterMap_cons, hreaction, List.map_cons, ← ih hrest]
      rfl
    · exact ih hrest

/-- **The backends select the same reactions** exactly where no reaction that is met but for energy
asks for more than the thermal energy of the gases and no more than the one raised to the minimum
heat capacity. -/
theorem selected_agree_iff {gasList : List (GasMetadata ℚ)} (hash : String → UInt64)
    (hgases : GasMetadataRegistry.tryNew gasList = .ok gases)
    (hreactions : ReactionMetadataRegistry.tryNew list gases = .ok reactions)
    (hamounts : ∀ i, m.getMoles i = moles.at i) (htemperature : 27 / 10 ≤ m.temperature)
    (hcoherent : Coherent (tableOf gases) m) :
    selected hash reactions m.temperature moles gases =
        m.allReactableWithSlice (tableOf gases) (getReactionInfo (list.map (reactionOf hash))) ↔
      ∀ reaction ∈ list, MetButEnergy gases m.temperature moles reaction →
        ∀ energy ∈ reaction.minimumEnergy,
          energy ≤ max (foldHeatCapacity moles gases.specificHeats) m.minHeatCapacity *
            m.temperature →
          energy ≤ foldHeatCapacity moles gases.specificHeats * m.temperature := by
  have hheats := (GasMetadataRegistry.wellFormed_of_tryNew hgases).specificHeats
  have hdown : (getReactionInfo (list.map (reactionOf hash))).downwards =
      (inOrder reactions).map (reactionOf hash) := by
    refine downwards_getReactionInfo ((perm_inOrder hreactions).map _) ?_
    exact List.pairwise_map.2 (descending_inOrder hreactions)
  have hweaker : foldHeatCapacity moles gases.specificHeats * m.temperature ≤
      max (foldHeatCapacity moles gases.specificHeats) m.minHeatCapacity * m.temperature :=
    mul_le_mul_of_nonneg_right (le_max_left _ _) (by linarith)
  rw [selected_eq hash hreactions, allReactableWithSlice, hdown, List.filter_map, List.map_map,
    show (Reaction.id ∘ reactionOf hash) = fun reaction => hash reaction.key from rfl,
    map_filter_eq_iff]
  · constructor
    · intro hall reaction hmem hothers energy henergy hbelow
      have hmet := hall reaction ((perm_inOrder hreactions).mem_iff.2 hmem) (by
        rw [Function.comp_apply, checkConditions_iff hash reaction hheats hamounts hcoherent]
        refine ⟨hothers, fun other hother => ?_⟩
        rwa [Option.mem_unique hother henergy])
      exact ((conditionsMet_iff reaction m.temperature moles).1 hmet).2 energy henergy
    · intro hall reaction hmem hlegacy
      rw [Function.comp_apply, checkConditions_iff hash reaction hheats hamounts hcoherent]
        at hlegacy
      rw [conditionsMet_iff]
      have hmemList := (perm_inOrder hreactions).mem_iff.1 hmem
      exact ⟨hlegacy.1, fun energy henergy =>
        hall reaction hmemList hlegacy.1 energy henergy (hlegacy.2 energy henergy)⟩
  · intro reaction hmem hcore
    rw [conditionsMet_iff] at hcore
    rw [Function.comp_apply, checkConditions_iff hash reaction hheats hamounts hcoherent]
    exact ⟨hcore.1, fun energy henergy => (hcore.2 energy henergy).trans hweaker⟩

/-- Oxygen alone. -/
def oxygenTable : List (GasMetadata ℚ) :=
  [{ id := ⟨0⟩, key := "o2", name := "Oxygen", flags := 0, specificHeat := 20, fusionPower := 0
     molesVisible := none, enthalpy := 0, fireRadiationReleased := 0, fireRole := .none
     fireProducts := none }]

/-- A reaction that needs ten kilojoules. -/
def energeticTable : List (ReactionMetadata ℚ) :=
  [{ id := ⟨0⟩, key := "late", priority := 1, minimumTemperature := none
     maximumTemperature := none, minimumEnergy := some 10000, minimumFireReagents := none
     gasRequirements := [], execution := .dm }]

/-- Two reactions that one mole of oxygen meets at 300 K, and one that needs more energy than it
has however its heat capacity is raised. -/
def steadyTable : List (ReactionMetadata ℚ) :=
  [{ id := ⟨0⟩, key := "late", priority := 1, minimumTemperature := none
     maximumTemperature := some 400, minimumEnergy := some 5000, minimumFireReagents := none
     gasRequirements := [⟨⟨0⟩, 1 / 2⟩], execution := .dm },
    { id := ⟨1⟩, key := "early", priority := 2, minimumTemperature := some 200
      maximumTemperature := none, minimumEnergy := none, minimumFireReagents := none
      gasRequirements := [], execution := .dm },
    { id := ⟨2⟩, key := "energetic", priority := 3, minimumTemperature := none
      maximumTemperature := none, minimumEnergy := some 20000, minimumFireReagents := none
      gasRequirements := [], execution := .dm }]

/-- One mole of oxygen at 300 K. -/
def oneMole (minHeatCapacity : ℚ) : Mixture ℚ :=
  { temperature := 300, volume := 2500, minHeatCapacity, moles := [1], cachedHeatCapacity := none
    immutable := false }

/-- The length of a key, in place of its hash. -/
def keyLength (key : String) : UInt64 := UInt64.ofNat key.length

/-- What the two backends select for one mole of oxygen. -/
def selections (hash : String → UInt64) (table : List (ReactionMetadata ℚ)) (minHeatCapacity : ℚ) :
    Option (List UInt64 × List UInt64) := do
  let gases ← (GasMetadataRegistry.tryNew oxygenTable).toOption
  let reactions ← (ReactionMetadataRegistry.tryNew table gases).toOption
  let m := oneMole minHeatCapacity
  return (selected hash reactions m.temperature (noGases.put 0 1) gases,
    m.allReactableWithSlice (tableOf gases)
      (getReactionInfo (table.map (reactionOf hash))))

theorem getMoles_oneMole (minHeatCapacity : ℚ) (i : Nat) :
    (oneMole minHeatCapacity).getMoles i = Gases.at (noGases.put 0 1) i := by
  rw [getMoles_eq, oneMole, Gases.at_put, Gases.at_noGases, exact_zero]
  cases i with
  | zero => rfl
  | succ i => simp

/-- The registries of the two tables, and what the backends select with them. -/
theorem exists_registries {hash : String → UInt64} {table : List (ReactionMetadata ℚ)}
    (minHeatCapacity : ℚ) {result : List UInt64 × List UInt64}
    (h : selections hash table minHeatCapacity = some result) :
    ∃ gases reactions, GasMetadataRegistry.tryNew oxygenTable = .ok gases ∧
      ReactionMetadataRegistry.tryNew table gases = .ok reactions ∧
      selected hash reactions (oneMole minHeatCapacity).temperature (noGases.put 0 1) gases =
        result.1 ∧
      (oneMole minHeatCapacity).allReactableWithSlice (tableOf gases)
        (getReactionInfo (table.map (reactionOf hash))) = result.2 := by
  unfold selections at h
  simp only [bind, Option.bind_eq_some_iff] at h
  obtain ⟨gases, hgases, reactions, hreactions, hselected⟩ := h
  cases hselected
  exact ⟨gases, reactions, Exec.eq_ok_of_toOption hgases, Exec.eq_ok_of_toOption hreactions, rfl,
    rfl⟩

/-- Both backends select two of the three reactions, the one of the higher priority first, although
the minimum heat capacity raises the energy. -/
theorem selected_agree_iff_oneMole : ∃ gases reactions,
    GasMetadataRegistry.tryNew oxygenTable = .ok gases ∧
    ReactionMetadataRegistry.tryNew steadyTable gases = .ok reactions ∧
    selected keyLength reactions (oneMole 50).temperature (noGases.put 0 1) gases = [5, 4] ∧
    selected keyLength reactions (oneMole 50).temperature (noGases.put 0 1) gases =
      (oneMole 50).allReactableWithSlice (tableOf gases)
        (getReactionInfo (steadyTable.map (reactionOf keyLength))) := by
  have hselections : (selections keyLength steadyTable 50).map Prod.fst = some [5, 4] := by decide +kernel
  obtain ⟨result, hresult, hselected⟩ := Option.map_eq_some_iff.1 hselections
  obtain ⟨gases, reactions, hgases, hreactions, hservice, -⟩ := exists_registries 50 hresult
  have hheats : ((GasMetadataRegistry.tryNew oxygenTable).toOption.map fun gases =>
      foldHeatCapacity (noGases.put 0 1) gases.specificHeats) = some 20 := by decide +kernel
  rw [hgases] at hheats
  have hcapacity : foldHeatCapacity (noGases.put 0 1) gases.specificHeats = 20 :=
    Option.some.inj hheats
  have hcoherent : Coherent (tableOf gases) (oneMole 50) := rfl
  refine ⟨gases, reactions, hgases, hreactions, hservice.trans hselected, ?_⟩
  refine (selected_agree_iff keyLength hgases hreactions (getMoles_oneMole 50) ?_ hcoherent).2 ?_
  · norm_num [oneMole]
  · -- no reaction asks for an energy between six and fifteen kilojoules
    have hasked : ∀ reaction ∈ steadyTable, ∀ energy ∈ reaction.minimumEnergy,
        energy ≤ 15000 → energy ≤ 6000 := by decide +kernel
    intro reaction hreaction _ energy henergy hbelow
    rw [hcapacity] at hbelow ⊢
    refine (hasked reaction hreaction energy henergy (hbelow.trans ?_)).trans ?_
    · norm_num [oneMole]
    · norm_num [oneMole]

/-- With a minimum heat capacity of a hundred, one mole of oxygen holds six kilojoules for the
service and thirty for the in-process backend. -/
theorem selected_differ : ∃ gases reactions,
    GasMetadataRegistry.tryNew oxygenTable = .ok gases ∧
    ReactionMetadataRegistry.tryNew energeticTable gases = .ok reactions ∧
    (∀ i, (oneMole 100).getMoles i = Gases.at (noGases.put 0 1) i) ∧
    27 / 10 ≤ (oneMole 100).temperature ∧ Coherent (tableOf gases) (oneMole 100) ∧
    selected (fun _ => 7) reactions (oneMole 100).temperature (noGases.put 0 1) gases ≠
      (oneMole 100).allReactableWithSlice (tableOf gases)
        (getReactionInfo (energeticTable.map (reactionOf fun _ => 7))) := by
  have hselections : selections (fun _ => 7) energeticTable 100 = some ([], [7]) := by decide +kernel
  obtain ⟨gases, reactions, hgases, hreactions, hservice, hlegacy⟩ :=
    exists_registries 100 hselections
  refine ⟨gases, reactions, hgases, hreactions, getMoles_oneMole 100, ?_, rfl, ?_⟩
  · norm_num [oneMole]
  · rw [hservice, hlegacy]
    decide

end Choice

end Legacy

end Dogmos
