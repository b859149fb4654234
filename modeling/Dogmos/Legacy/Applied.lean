import Dogmos.Legacy.Finalize
import Dogmos.Legacy.Routing
import Mathlib.Data.List.Perm.Basic

/-!
# Each flow is applied once

A turf takes its movements off its edges before it sends any of them, and a turf that it waits for
does the same, so what is positive on the edges and in the lists of the turfs that wait gets less
with every turf that starts to send.  The edge back of a movement is never positive, so setting it
to zero loses nothing.

* `Applies` — what was done between two states, as a list of movements.
* `finalizeEq_applies` — a call comes to an end and applies what it took, each movement once.
* `finalizeNodes_applies` — after all turfs nothing is left.
-/

namespace Dogmos

namespace Legacy

variable {table : GasTable ℚ} {arena : TurfGraph}

/-- A movement: from, to, and how much. -/
abbrev Move := Nat × Nat × ℚ

/-- The turf at a node that is occupied. -/
def turfAt (arena : TurfGraph) (node : Nat) : TurfMixture :=
  (arena.turfs.get node).getD ⟨0, 0, 0, 0, none⟩

/-- What is reported of a movement. -/
def reportOf (arena : TurfGraph) (move : Move) : PressureDifference ℚ :=
  .along (turfAt arena move.1) (turfAt arena move.2.1) move.2.2

/-- The mixtures after a movement. -/
def applyMove (table : GasTable ℚ) (arena : TurfGraph) (mixtures : List (Mixture ℚ))
    (move : Move) : List (Mixture ℚ) :=
  moveAlong (D := ℚ) table (turfAt arena move.1) (turfAt arena move.2.1) move.2.2 mixtures

/-- The movements that the edges of a zone hold. -/
def positives (graph : ZoneGraph ℚ) : List Move :=
  (graph.edges.filter fun edge => 0 < graph.weight edge.1 edge.2).map fun edge =>
    (edge.1, edge.2, graph.weight edge.1 edge.2)

/-- What was done between two states: the movements were reported and applied in one order, and
the weights that changed are zero now. -/
structure Applies (table : GasTable ℚ) (arena : TurfGraph) (before after : Flows ℚ)
    (moves : List Move) : Prop where
  pressures : after.pressures = before.pressures ++ moves.map (reportOf arena)
  mixtures : after.mixtures = moves.foldl (applyMove table arena) before.mixtures
  nodes : after.graph.nodes = before.graph.nodes
  edges : after.graph.edges = before.graph.edges
  weight : ∀ a b, after.graph.weight a b = before.graph.weight a b ∨ after.graph.weight a b = 0

namespace Applies

variable {before middle after : Flows ℚ} {moves moves' : List Move}

theorem refl (table : GasTable ℚ) (arena : TurfGraph) (flows : Flows ℚ) :
    Applies table arena flows flows [] :=
  ⟨by simp, rfl, rfl, rfl, fun _ _ => .inl rfl⟩

theorem trans (h : Applies table arena before middle moves)
    (h' : Applies table arena middle after moves') :
    Applies table arena before after (moves ++ moves') := by
  refine ⟨?_, ?_, h'.nodes.trans h.nodes, h'.edges.trans h.edges, fun a b => ?_⟩
  · rw [h'.pressures, h.pressures, List.map_append, List.append_assoc]
  · rw [h'.mixtures, h.mixtures, List.foldl_append]
  · rcases h'.weight a b with hsame | hzero
    · rw [hsame]
      exact h.weight a b
    · exact .inr hzero

/-- A weight that is not positive stays so. -/
theorem nonpos (h : Applies table arena before after moves) {a b : Nat}
    (hweight : before.graph.weight a b ≤ 0) : after.graph.weight a b ≤ 0 := by
  rcases h.weight a b with hsame | hzero
  · rwa [hsame]
  · rw [hzero]

end Applies

/-- No two turfs owe each other. -/
def OneWay (graph : ZoneGraph ℚ) : Prop :=
  ∀ a b, 0 < graph.weight a b → (a, b) ∈ graph.edges → (b, a) ∈ graph.edges →
    graph.weight b a ≤ 0

theorem OneWay.of_applies {before after : Flows ℚ} {moves : List Move} (h : OneWay before.graph)
    (happlies : Applies table arena before after moves) : OneWay after.graph := by
  intro a b hpos hedge hback
  rw [happlies.edges] at hedge hback
  rcases happlies.weight a b with hsame | hzero
  · rw [hsame] at hpos
    exact happlies.nonpos (h a b hpos hedge hback)
  · rw [hzero] at hpos
    exact absurd hpos (lt_irrefl 0)

/-! ## Movements taken off the edges -/

section Consumed

variable {graph : ZoneGraph ℚ} {index : Nat}

/-- The movements a turf holds in its list. -/
def held (index : Nat) (pairs : List (Nat × ℚ)) : List Move :=
  (pairs.filter fun pair => 0 < pair.2).map fun pair => (index, pair.1, pair.2)

theorem perm_consumed {weight weight' : Nat → Nat → ℚ} (index : Nat) {edges : List (Nat × Nat)}
    (h : ∀ edge ∈ edges, weight' edge.1 edge.2 =
      if edge.1 = index then 0 else weight edge.1 edge.2) :
    ((edges.filter fun edge => 0 < weight edge.1 edge.2).map fun edge =>
        (edge.1, edge.2, weight edge.1 edge.2)).Perm
      (held index (((edges.filter fun edge => edge.1 = index).map Prod.snd).map fun target =>
          (target, weight index target)) ++
        (edges.filter fun edge => 0 < weight' edge.1 edge.2).map fun edge =>
          (edge.1, edge.2, weight' edge.1 edge.2)) := by
  induction edges with
  | nil => exact .refl []
  | cons edge edges ih =>
    have hedge := h edge (List.mem_cons_self ..)
    specialize ih fun edge hedge => h edge (List.mem_cons_of_mem _ hedge)
    obtain ⟨a, b⟩ := edge
    dsimp only at hedge ih ⊢
    unfold held at ih ⊢
    by_cases hfrom : a = index
    · subst hfrom
      rw [if_pos rfl] at hedge
      by_cases hpos : 0 < weight a b
      · simpa [List.filter_cons, hpos, hedge] using ih
      · simpa [List.filter_cons, hpos, hedge] using ih
    · rw [if_neg hfrom] at hedge
      by_cases hpos : 0 < weight a b
      · simp only [List.filter_cons, hpos, hedge, hfrom, decide_true, if_true, List.map_cons,
          decide_false, Bool.false_eq_true, if_false]
        exact (ih.cons _).trans List.perm_middle.symm
      · simpa [List.filter_cons, hpos, hedge, hfrom] using ih

/-- A turf that takes its movements off its edges has them in its list. -/
theorem positives_consumed (graph : ZoneGraph ℚ) (index : Nat) :
    (positives graph).Perm
      (held index (graph.pairs index) ++ positives (graph.consumed index)) := by
  refine perm_consumed index fun edge hedge => ?_
  obtain ⟨a, b⟩ := edge
  unfold ZoneGraph.consumed
  by_cases hfrom : a = index
  · subst hfrom
    simp [hedge]
  · simp [hfrom]

theorem applies_consumed (table : GasTable ℚ) (arena : TurfGraph) (flows : Flows ℚ)
    (index : Nat) :
    Applies table arena flows { flows with graph := flows.graph.consumed index } [] := by
  refine ⟨by simp, rfl, rfl, rfl, fun a b => ?_⟩
  unfold ZoneGraph.consumed
  dsimp only
  split
  · exact .inr exact_zero
  · exact .inl rfl

/-- Setting a weight that is not positive to zero takes no movement. -/
theorem positives_setWeight {a b : Nat} (h : graph.weight a b ≤ 0) :
    positives (graph.setWeight a b 0) = positives graph := by
  unfold positives ZoneGraph.setWeight
  dsimp only
  have hpos : ∀ edge : Nat × Nat,
      decide (0 < if edge.1 = a ∧ edge.2 = b then 0 else graph.weight edge.1 edge.2) =
        decide (0 < graph.weight edge.1 edge.2) := by
    intro edge
    split
    · next heq =>
      obtain ⟨rfl, rfl⟩ := heq
      simp [h]
    · rfl
  rw [List.filter_congr fun edge _ => hpos edge]
  refine List.map_congr_left fun edge hedge => ?_
  have hedge' := (List.mem_filter.1 hedge).2
  rw [decide_eq_true_eq] at hedge'
  rw [if_neg]
  rintro ⟨rfl, rfl⟩
  exact absurd hedge' (not_lt.2 h)

end Consumed

/-! ## One turf -/

section Calls

variable {flows : Flows ℚ} {fuel index : Nat} {pairs : List (Nat × ℚ)} {turf : TurfMixture}

/-- What a call does: it comes to an end, has applied what it took off the edges, and leaves
nothing on the edges of its own turf. -/
def Ends (table : GasTable ℚ) (arena : TurfGraph) (index : Nat) (flows : Flows ℚ)
    (result : Option (Flows ℚ)) : Prop :=
  ∃ after moves, result = some after ∧ Applies table arena flows after moves ∧
    (positives flows.graph).Perm (moves ++ positives after.graph) ∧
    ∀ v, (index, v) ∈ flows.graph.edges → after.graph.weight index v = 0

/-- Whatever is run from a state with less on its edges than some fuel, for a turf of the zone,
comes to an end. -/
def EndsWithin (table : GasTable ℚ) (arena : TurfGraph) (zone : ZoneGraph ℚ) (fuel : Nat)
    (call : Nat → Flows ℚ → Option (Flows ℚ)) : Prop :=
  ∀ index ∈ zone.nodes, ∀ flows : Flows ℚ, flows.graph.edges = zone.edges → OneWay flows.graph →
    (positives flows.graph).length < fuel → Ends table arena index flows (call index flows)

theorem length_positives_le {before after : Flows ℚ} {moves : List Move}
    (h : (positives before.graph).Perm (moves ++ positives after.graph)) :
    (positives after.graph).length ≤ (positives before.graph).length := by
  rw [h.length_eq, List.length_append]
  omega

variable {zone : ZoneGraph ℚ} {call : Nat → Flows ℚ → Option (Flows ℚ)}

theorem finalizeEqNeighbors_applies (hcall : EndsWithin table arena zone fuel call)
    (hpairs : ∀ pair ∈ pairs, pair.1 ∈ zone.nodes) (hedges : flows.graph.edges = zone.edges)
    (honeway : OneWay flows.graph) (hfuel : (positives flows.graph).length < fuel) :
    ∃ after moves, finalizeEqNeighbors call pairs flows = some after ∧
      Applies table arena flows after moves ∧
      (positives flows.graph).Perm (moves ++ positives after.graph) := by
  unfold finalizeEqNeighbors
  have hnegative : ∀ pair ∈ pairs.filter fun pair => pair.2 < 0.0, pair.1 ∈ zone.nodes :=
    fun pair hpair => hpairs pair (List.mem_filter.1 hpair).1
  generalize (pairs.filter fun pair => pair.2 < 0.0) = negative at hnegative
  clear hpairs
  induction negative generalizing flows with
  | nil => exact ⟨flows, [], rfl, .refl table arena flows, .refl _⟩
  | cons pair negative ih =>
    obtain ⟨middle, moves, hmiddle, happlies, hperm, -⟩ :=
      hcall pair.1 (hnegative pair (List.mem_cons_self ..)) flows hedges honeway hfuel
    obtain ⟨after, moves', hafter, happlies', hperm'⟩ := ih (happlies.edges.trans hedges)
      (honeway.of_applies happlies) (Nat.lt_of_le_of_lt (length_positives_le hperm) hfuel)
      fun pair hpair => hnegative pair (List.mem_cons_of_mem _ hpair)
    refine ⟨after, moves ++ moves', ?_, happlies.trans happlies', ?_⟩
    · rw [List.foldlM_cons, hmiddle]
      exact hafter
    · rw [List.append_assoc]
      exact hperm.trans (hperm'.append_left moves)

/-- Sending one movement takes nothing off the edges: the edge back is not positive. -/
theorem sendPair_applies (table : GasTable ℚ) (hindex : arena.turfs.get index = some turf)
    {target : Nat} {adjMix : TurfMixture} (htarget : arena.turfs.get target = some adjMix)
    (amount : ℚ)
    (hback : (target, index) ∈ flows.graph.edges → flows.graph.weight target index ≤ 0) :
    Applies table arena flows (sendPair (D := ℚ) table index target turf adjMix amount flows)
        [(index, target, amount)] ∧
      positives (sendPair (D := ℚ) table index target turf adjMix amount flows).graph =
        positives flows.graph := by
  unfold sendPair
  dsimp only
  refine ⟨⟨?_, ?_, ?_, ?_, fun a b => ?_⟩, ?_⟩
  · simp [reportOf, turfAt, hindex, htarget]
  · simp [applyMove, turfAt, hindex, htarget]
  · split <;> rfl
  · split <;> rfl
  · split
    · by_cases hab : a = target ∧ b = index
      · exact .inr (by simp [ZoneGraph.setWeight, hab])
      · exact .inl (by simp [ZoneGraph.setWeight, hab])
    · exact .inl rfl
  · unfold ZoneGraph.edgeWeight
    by_cases hedge : (target, index) ∈ flows.graph.edges
    · rw [if_pos hedge, exact_zero]
      exact positives_setWeight (hback hedge)
    · rw [if_neg hedge]

/-- One movement of a turf's list is applied, after what its neighbours owe it if need be. -/
theorem finalizePair_applies (hcall : EndsWithin table arena zone fuel call)
    (hpairs : ∀ pair ∈ pairs, pair.1 ∈ zone.nodes) (hedges : flows.graph.edges = zone.edges)
    (honeway : OneWay flows.graph) (hindex : arena.turfs.get index = some turf)
    {target : Nat} {amount : ℚ} (hpos : 0 < amount)
    (htarget : (arena.turfs.get target).isSome = true)
    (hback : (target, index) ∈ flows.graph.edges → flows.graph.weight target index ≤ 0)
    (hfuel : (positives flows.graph).length < fuel) :
    ∃ after moves,
      finalizePair (D := ℚ) table arena call index turf pairs flows (target, amount) =
        some after ∧
      Applies table arena flows after moves ∧
      ((index, target, amount) :: positives flows.graph).Perm
        (moves ++ positives after.graph) ∧
      (positives after.graph).length ≤ (positives flows.graph).length := by
  obtain ⟨adjMix, htarget⟩ := Option.isSome_iff_exists.1 htarget
  obtain ⟨middle, moves, hmiddle, happlies, hperm⟩ : ∃ middle moves,
      (if turf.totalMolesIn flows.mixtures < amount then finalizeEqNeighbors call pairs flows
        else some flows) = some middle ∧
      Applies table arena flows middle moves ∧
      (positives flows.graph).Perm (moves ++ positives middle.graph) := by
    split
    · exact finalizeEqNeighbors_applies hcall hpairs hedges honeway hfuel
    · exact ⟨flows, [], rfl, .refl table arena flows, .refl _⟩
  have hpos' : (0.0 : ℚ) < amount := by rwa [exact_zero]
  obtain ⟨hsend, hsame⟩ := sendPair_applies table hindex htarget amount
    fun hedge => happlies.nonpos (hback (happlies.edges ▸ hedge))
  refine ⟨_, moves ++ [(index, target, amount)], ?_, happlies.trans hsend, ?_, ?_⟩
  · unfold finalizePair
    dsimp only
    rw [if_pos hpos', htarget]
    dsimp only
    rw [hmiddle]
    rfl
  · rw [hsame, List.append_assoc, List.singleton_append]
    exact (hperm.cons _).trans List.perm_middle.symm
  · rw [hsame]
    exact length_positives_le hperm

/-- The whole list of a turf is applied. -/
theorem foldlM_finalizePair_applies (hcall : EndsWithin table arena zone fuel call)
    (hoccupied : ∀ node ∈ zone.nodes, (arena.turfs.get node).isSome = true)
    (hpairs : ∀ pair ∈ pairs, pair.1 ∈ zone.nodes) (hindex : arena.turfs.get index = some turf)
    {rest : List (Nat × ℚ)} (hrest : ∀ pair ∈ rest, pair.1 ∈ zone.nodes)
    (hback : ∀ pair ∈ rest, 0 < pair.2 → (pair.1, index) ∈ flows.graph.edges →
      flows.graph.weight pair.1 index ≤ 0)
    (hedges : flows.graph.edges = zone.edges) (honeway : OneWay flows.graph)
    (hfuel : held index rest = [] ∨ (positives flows.graph).length < fuel) :
    ∃ after moves,
      rest.foldlM (finalizePair (D := ℚ) table arena call index turf pairs) flows = some after ∧
      Applies table arena flows after moves ∧
      (held index rest ++ positives flows.graph).Perm (moves ++ positives after.graph) := by
  induction rest generalizing flows with
  | nil => exact ⟨flows, [], rfl, .refl table arena flows, .refl _⟩
  | cons pair rest ih =>
    obtain ⟨target, amount⟩ := pair
    have hrest' : ∀ pair ∈ rest, pair.1 ∈ zone.nodes := fun pair hpair =>
      hrest pair (List.mem_cons_of_mem _ hpair)
    rw [List.foldlM_cons]
    by_cases hpos : 0 < amount
    · have hheld : held index ((target, amount) :: rest) =
          (index, target, amount) :: held index rest := by
        simp [held, hpos]
      have hless : (positives flows.graph).length < fuel :=
        hfuel.resolve_left (by rw [hheld]; simp)
      obtain ⟨middle, moves, hmiddle, happlies, hperm, hless'⟩ := finalizePair_applies hcall
        hpairs hedges honeway hindex hpos (hoccupied target (hrest _ (List.mem_cons_self ..)))
        (hback _ (List.mem_cons_self ..) hpos) hless
      obtain ⟨after, moves', hafter, happlies', hperm'⟩ := ih hrest'
        (fun pair hpair hpos hedge => happlies.nonpos
          (hback pair (List.mem_cons_of_mem _ hpair) hpos (happlies.edges ▸ hedge)))
        (happlies.edges.trans hedges) (honeway.of_applies happlies)
        (.inr (Nat.lt_of_le_of_lt hless' hless))
      refine ⟨after, moves ++ moves', ?_, happlies.trans happlies', ?_⟩
      · rw [hmiddle]
        exact hafter
      · rw [hheld, List.append_assoc, List.cons_append]
        refine List.Perm.trans ?_ (hperm'.append_left moves)
        -- the movement sent now comes before what is left of the list
        have hlater : ((index, target, amount) :: (held index rest ++ positives flows.graph)).Perm
            (held index rest ++ (index, target, amount) :: positives flows.graph) :=
          List.perm_middle.symm
        have hsent : (held index rest ++ (moves ++ positives middle.graph)).Perm
            (moves ++ (held index rest ++ positives middle.graph)) := by
          rw [← List.append_assoc, ← List.append_assoc]
          exact List.perm_append_comm.append_right _
        exact (hlater.trans (hperm.append_left _)).trans hsent
    · have hheld : held index ((target, amount) :: rest) = held index rest := by
        simp [held, hpos]
      have hskip : finalizePair (D := ℚ) table arena call index turf pairs flows (target, amount) =
          some flows := by
        unfold finalizePair
        dsimp only
        rw [exact_zero, if_neg hpos]
      rw [hskip, hheld]
      rw [hheld] at hfuel
      exact ih hrest' (fun pair hpair => hback pair (List.mem_cons_of_mem _ hpair)) hedges honeway
        hfuel

/-- A call for one turf comes to an end and applies what it took off the edges. -/
theorem finalizeEq_applies (table : GasTable ℚ) (hwf : zone.WellFormed)
    (hoccupied : ∀ node ∈ zone.nodes, (arena.turfs.get node).isSome = true) (fuel : Nat) :
    EndsWithin table arena zone fuel (finalizeEq (D := ℚ) table arena fuel) := by
  induction fuel with
  | zero => exact fun _ _ _ _ _ hfuel => absurd hfuel (Nat.not_lt_zero _)
  | succ fuel ih =>
    intro index hnode flows hedges honeway hfuel
    obtain ⟨turf, hturf⟩ := Option.isSome_iff_exists.1 (hoccupied index hnode)
    have hpairs : ∀ pair ∈ flows.graph.pairs index, (index, pair.1) ∈ flows.graph.edges ∧
        pair.2 = flows.graph.weight index pair.1 := by
      intro pair hpair
      obtain ⟨target, htarget, rfl⟩ := List.mem_map.1 hpair
      obtain ⟨⟨a, b⟩, hmem, rfl⟩ := List.mem_map.1 htarget
      obtain ⟨hedge, hfrom⟩ := List.mem_filter.1 hmem
      obtain rfl : a = index := by simpa using hfrom
      exact ⟨hedge, rfl⟩
    have hnodes : ∀ pair ∈ flows.graph.pairs index, pair.1 ∈ zone.nodes := fun pair hpair =>
      (hwf.ends _ (hedges ▸ (hpairs pair hpair).1)).2
    have htaken := applies_consumed table arena flows index
    have hedges' : { flows with graph := flows.graph.consumed index : Flows ℚ }.graph.edges =
        zone.edges := hedges
    have hperm := positives_consumed flows.graph index
    have hback : ∀ pair ∈ flows.graph.pairs index, 0 < pair.2 →
        (pair.1, index) ∈ flows.graph.edges →
          (flows.graph.consumed index).weight pair.1 index ≤ 0 := by
      intro pair hpair hpos hedge
      obtain ⟨hforth, hweight⟩ := hpairs pair hpair
      exact htaken.nonpos (honeway _ _ (hweight ▸ hpos) hforth hedge)
    have hless : held index (flows.graph.pairs index) = [] ∨
        (positives (flows.graph.consumed index)).length < fuel := by
      rcases hheld : held index (flows.graph.pairs index) with _ | ⟨move, rest⟩
      · exact .inl rfl
      · have hlength := hperm.length_eq
        rw [hheld, List.length_append, List.length_cons] at hlength
        exact .inr (by omega)
    obtain ⟨after, moves, hafter, happlies, hperm'⟩ := foldlM_finalizePair_applies ih hoccupied
      hnodes hturf hnodes hback hedges' (honeway.of_applies htaken) hless
    refine ⟨after, moves, ?_, htaken.trans happlies, hperm.trans hperm', fun v hedge => ?_⟩
    · unfold finalizeEq
      rw [hturf]
      exact hafter
    · have hzero : (flows.graph.consumed index).weight index v = 0 := by
        simp [ZoneGraph.consumed, hedge]
      rcases happlies.weight index v with hsame | hsent
      · exact hsame.trans hzero
      · exact hsent

/-! ## All turfs -/

theorem finalizeNodes_applies (table : GasTable ℚ) (hwf : zone.WellFormed)
    (hoccupied : ∀ node ∈ zone.nodes, (arena.turfs.get node).isSome = true) {nodes : List Nat}
    (hnodes : ∀ node ∈ nodes, node ∈ zone.nodes) (hedges : flows.graph.edges = zone.edges)
    (honeway : OneWay flows.graph) (hfuel : (positives flows.graph).length < fuel) :
    ∃ after moves, finalizeNodes (D := ℚ) table arena fuel nodes flows = some after ∧
      Applies table arena flows after moves ∧
      (positives flows.graph).Perm (moves ++ positives after.graph) ∧
      ∀ node ∈ nodes, ∀ v, (node, v) ∈ zone.edges → after.graph.weight node v = 0 := by
  unfold finalizeNodes
  induction nodes generalizing flows with
  | nil => exact ⟨flows, [], rfl, .refl table arena flows, .refl _, by simp⟩
  | cons node nodes ih =>
    rw [List.forall_mem_cons] at hnodes
    obtain ⟨middle, moves, hmiddle, happlies, hperm, hzero⟩ :=
      finalizeEq_applies table hwf hoccupied fuel node hnodes.1 flows hedges honeway hfuel
    obtain ⟨after, moves', hafter, happlies', hperm', hzeros⟩ := ih hnodes.2
      (happlies.edges.trans hedges) (honeway.of_applies happlies)
      (Nat.lt_of_le_of_lt (length_positives_le hperm) hfuel)
    refine ⟨after, moves ++ moves', ?_, happlies.trans happlies', ?_, ?_⟩
    · rw [List.foldlM_cons, hmiddle]
      exact hafter
    · rw [List.append_assoc]
      exact hperm.trans (hperm'.append_left moves)
    · rw [List.forall_mem_cons]
      refine ⟨fun v hedge => ?_, hzeros⟩
      -- what is zero stays zero
      rcases happlies'.weight node v with hsame | hsent
      · rw [hsame]
        exact hzero v (hedges ▸ hedge)
      · exact hsent

end Calls

end Legacy

end Dogmos
