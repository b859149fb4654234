import Dogmos.Exact.Amounts
import Dogmos.Lib.Flow
import Dogmos.Legacy.Zones
import Mathlib.Data.Finset.Dedup
import Mathlib.Logic.Relation

/-!
# Where a zone's surplus goes

Everything that is moved in a zone is written to the edges in both directions, and taken from what
a turf has over the average.  So at any time the net outflow of a turf is what it had over the
average less what it has left of that, whichever passes ran and in which order.

* `flow_adjustEqMovement` — one movement is one amount sent over an edge.
* `Books` — the invariant, kept by the fast pass (`Books.fastProcess`) and by every search
  (`Books.routeFrom`).
-/

namespace Dogmos

namespace Legacy

open Finset

/-! ## Movements -/

local instance lawfulBEq_movement : LawfulBEq (Nat × Nat) := inferInstance

/-- What is to be moved from one turf to another: the weight of the edge, or the opposite of the
weight of the edge back. -/
def ZoneGraph.flow (graph : ZoneGraph ℚ) (u v : Nat) : ℚ :=
  if (u, v) ∈ graph.edges then graph.weight u v
  else if (v, u) ∈ graph.edges then -graph.weight v u
  else 0

/-- What is to be moved out of a turf, less what is to be moved into it. -/
def ZoneGraph.netOut (graph : ZoneGraph ℚ) (u : Nat) : ℚ :=
  Flow.netOut graph.nodes.toFinset graph.flow u

section Adjust

variable {graph : ZoneGraph ℚ} {u v : Nat} {amount : ℚ}

@[simp] theorem nodes_adjustEqMovement (u v : Nat) (amount : ℚ) (graph : ZoneGraph ℚ) :
    (adjustEqMovement u v amount graph).nodes = graph.nodes := by
  unfold adjustEqMovement
  dsimp only
  split <;> split <;> rfl

@[simp] theorem edges_adjustEqMovement (u v : Nat) (amount : ℚ) (graph : ZoneGraph ℚ) :
    (adjustEqMovement u v amount graph).edges = graph.edges := by
  unfold adjustEqMovement
  dsimp only
  split <;> split <;> rfl

/-- The weights of the two edges change, if they exist, and no others. -/
theorem weight_adjustEqMovement (huv : u ≠ v) (amount : ℚ) (graph : ZoneGraph ℚ) (x y : Nat) :
    (adjustEqMovement u v amount graph).weight x y =
      if x = u ∧ y = v ∧ (u, v) ∈ graph.edges then graph.weight u v + amount
      else if x = v ∧ y = u ∧ (v, u) ∈ graph.edges then graph.weight v u - amount
      else graph.weight x y := by
  unfold adjustEqMovement ZoneGraph.edgeWeight
  by_cases hto : (u, v) ∈ graph.edges <;> by_cases hback : (v, u) ∈ graph.edges <;>
    simp [ZoneGraph.setWeight, hto, hback, huv, huv.symm]
  grind

theorem flow_adjustEqMovement (huv : u ≠ v) (hedge : (u, v) ∈ graph.edges ∨ (v, u) ∈ graph.edges)
    (amount : ℚ) :
    (adjustEqMovement u v amount graph).flow = Flow.send graph.flow u v amount := by
  funext x y
  unfold ZoneGraph.flow Flow.send
  rw [edges_adjustEqMovement, weight_adjustEqMovement huv, weight_adjustEqMovement huv]
  by_cases hto : x = u ∧ y = v
  · obtain ⟨rfl, rfl⟩ := hto
    by_cases hxy : (x, y) ∈ graph.edges
    · simp [hxy]
    · have hyx := hedge.resolve_left hxy
      simp [hxy, hyx, huv, huv.symm]
      ring
  · by_cases hback : x = v ∧ y = u
    · obtain ⟨rfl, rfl⟩ := hback
      by_cases hxy : (x, y) ∈ graph.edges
      · simp [hxy, huv, huv.symm]
      · have hyx := hedge.resolve_right hxy
        simp [hxy, hyx, huv, huv.symm]
        ring
    · grind

end Adjust

/-! ## Infos -/

namespace InfoMap

variable {F : Type} {info : InfoMap F} {node other : Nat}

theorem modify_same (h : (info node).isSome = true) (written : MonstermosInfo F) :
    info.modify node written node = some written := by
  obtain ⟨found, hfound⟩ := Option.isSome_iff_exists.1 h
  simp [modify, hfound]

theorem modify_other (h : other ≠ node) (written : MonstermosInfo F) :
    info.modify node written other = info other := by
  simp [modify, h]

theorem isSome_modify (info : InfoMap F) (node : Nat) (written : MonstermosInfo F) (other : Nat) :
    (info.modify node written other).isSome = (info other).isSome := by
  unfold modify
  split
  · next h => rw [h, Option.isSome_map]
  · rfl

theorem modify_self {found : MonstermosInfo F} (h : info node = some found) :
    info.modify node found = info := by
  funext other
  unfold modify
  split
  · next heq => rw [heq, h, Option.map_some]
  · rfl

/-- `mole_delta` of a node. -/
def delta (info : InfoMap ℚ) (node : Nat) : ℚ := ((info node).map MonstermosInfo.moleDelta).getD 0

/-- `curr_transfer_amount` of a node. -/
def amount (info : InfoMap ℚ) (node : Nat) : ℚ :=
  ((info node).map MonstermosInfo.currTransferAmount).getD 0

/-- `curr_transfer_dir` of a node. -/
def dir (info : InfoMap F) (node : Nat) : Option Nat :=
  (info node).bind MonstermosInfo.currTransferDir

theorem delta_of {info : InfoMap ℚ} {found : MonstermosInfo ℚ} (h : info node = some found) :
    info.delta node = found.moleDelta := by
  rw [delta, h]
  rfl

theorem amount_of {info : InfoMap ℚ} {found : MonstermosInfo ℚ} (h : info node = some found) :
    info.amount node = found.currTransferAmount := by
  rw [amount, h]
  rfl

theorem dir_of {found : MonstermosInfo F} (h : info node = some found) :
    info.dir node = found.currTransferDir := by
  rw [dir, h]
  rfl

section Congr

variable {info info' : InfoMap ℚ} (h : info' node = info node)

include h

theorem delta_congr : info'.delta node = info.delta node := by rw [delta, delta, h]

theorem amount_congr : info'.amount node = info.amount node := by rw [amount, amount, h]

theorem dir_congr : info'.dir node = info.dir node := by rw [dir, dir, h]

end Congr

end InfoMap

/-! ## The invariant -/

/-- A graph without repeated nodes whose edges run between its nodes. -/
structure ZoneGraph.WellFormed (zone : ZoneGraph ℚ) : Prop where
  nodes : zone.nodes.Nodup
  ends : ∀ edge ∈ zone.edges, edge.1 ∈ zone.nodes ∧ edge.2 ∈ zone.nodes

/-- The net outflow of every turf is what it had over the average less what it has left. -/
structure Books (zone : ZoneGraph ℚ) (surplus : Nat → ℚ) (state : InfoMap ℚ × ZoneGraph ℚ) :
    Prop where
  nodes : state.2.nodes = zone.nodes
  edges : state.2.edges = zone.edges
  present : ∀ u, (state.1 u).isSome = true ↔ u ∈ zone.nodes
  antisymmetric : Flow.Antisymmetric state.2.flow
  booked : ∀ u ∈ zone.nodes, state.2.netOut u + state.1.delta u = surplus u

section Books

variable {zone : ZoneGraph ℚ} {surplus : Nat → ℚ} {info : InfoMap ℚ} {graph : ZoneGraph ℚ}
  {state : InfoMap ℚ × ZoneGraph ℚ}

theorem netOut_adjustEqMovement (hwf : zone.WellFormed) (hnodes : graph.nodes = zone.nodes)
    (hedges : graph.edges = zone.edges) {u v : Nat}
    (hedge : (u, v) ∈ zone.edges ∨ (v, u) ∈ zone.edges) (huv : u ≠ v) (amount : ℚ) (x : Nat) :
    (adjustEqMovement u v amount graph).netOut x =
      graph.netOut x + (if x = u then amount else if x = v then -amount else 0) := by
  have hends : u ∈ zone.nodes ∧ v ∈ zone.nodes := by
    rcases hedge with hedge | hedge
    · exact hwf.ends _ hedge
    · exact (hwf.ends _ hedge).symm
  unfold ZoneGraph.netOut
  rw [nodes_adjustEqMovement, flow_adjustEqMovement huv (by rw [hedges]; exact hedge),
    Flow.netOut_send (by simpa [hnodes] using hends.1) (by simpa [hnodes] using hends.2) huv]

theorem antisymmetric_adjustEqMovement (hanti : Flow.Antisymmetric graph.flow)
    (hedges : graph.edges = zone.edges) {u v : Nat}
    (hedge : (u, v) ∈ zone.edges ∨ (v, u) ∈ zone.edges) (huv : u ≠ v) (amount : ℚ) :
    Flow.Antisymmetric (adjustEqMovement u v amount graph).flow := by
  rw [flow_adjustEqMovement huv (by rw [hedges]; exact hedge)]
  exact hanti.send huv amount

/-- What all turfs have left adds up to the surplus of the zone. -/
theorem Books.sum_delta (h : Books zone surplus state) :
    ∑ u ∈ zone.nodes.toFinset, state.1.delta u = ∑ u ∈ zone.nodes.toFinset, surplus u := by
  have hout := Flow.sum_netOut h.antisymmetric zone.nodes.toFinset
  have hbooked : ∑ u ∈ zone.nodes.toFinset, surplus u =
      ∑ u ∈ zone.nodes.toFinset, (state.2.netOut u + state.1.delta u) :=
    sum_congr rfl fun u hu => (h.booked u (List.mem_toFinset.1 hu)).symm
  rw [hbooked, sum_add_distrib]
  unfold ZoneGraph.netOut
  rw [h.nodes, hout, zero_add]

/-! ### The fast pass -/

theorem mem_neighbors {graph : ZoneGraph ℚ} {u v : Nat} :
    v ∈ graph.neighbors u ↔ (u, v) ∈ graph.edges := by
  unfold ZoneGraph.neighbors
  simp only [List.mem_map, List.mem_filter, decide_eq_true_eq]
  constructor
  · rintro ⟨⟨a, b⟩, ⟨hedge, rfl⟩, rfl⟩
    exact hedge
  · intro hedge
    exact ⟨(u, v), ⟨hedge, rfl⟩, rfl⟩

end Books

/-! ## Searches -/

/-- How the queue of a search grows: every turf but the root was found next to one before it,
which it transfers to. -/
inductive Grown (edges : List (Nat × Nat)) (dir : Nat → Option Nat) (root : Nat) :
    List Nat → Prop
  | root : Grown edges dir root [root]
  | found {queue : List Nat} {d a : Nat} (hqueue : Grown edges dir root queue) (hd : d ∈ queue)
      (ha : a ∉ queue) (hedge : (d, a) ∈ edges) (hdir : dir a = some d) :
      Grown edges dir root (queue ++ [a])

namespace Grown

variable {edges : List (Nat × Nat)} {dir dir' : Nat → Option Nat} {root : Nat} {queue : List Nat}

theorem root_mem (h : Grown edges dir root queue) : root ∈ queue := by
  induction h with
  | root => exact List.mem_singleton_self root
  | found _ _ _ _ _ ih => exact List.mem_append_left _ ih

theorem nodup (h : Grown edges dir root queue) : queue.Nodup := by
  induction h with
  | root => exact List.nodup_singleton root
  | found _ _ ha _ _ ih =>
    rw [List.nodup_append]
    refine ⟨ih, List.nodup_singleton _, fun x hx y hy => ?_⟩
    rintro rfl
    rw [List.mem_singleton.1 hy] at hx
    exact ha hx

theorem congr (h : Grown edges dir root queue) (hdir : ∀ u ∈ queue, dir' u = dir u) :
    Grown edges dir' root queue := by
  induction h with
  | root => exact .root
  | found _ hd ha hedge hfrom ih =>
    refine .found (ih fun u hu => hdir u (List.mem_append_left _ hu)) hd ha hedge ?_
    rw [hdir _ (List.mem_append_right _ (List.mem_singleton_self _)), hfrom]

theorem subset (h : Grown edges dir root queue) {nodes : List Nat} (hroot : root ∈ nodes)
    (hends : ∀ edge ∈ edges, edge.1 ∈ nodes ∧ edge.2 ∈ nodes) : ∀ u ∈ queue, u ∈ nodes := by
  induction h with
  | root =>
    intro u hu
    rwa [List.mem_singleton.1 hu]
  | found _ _ _ hedge _ ih =>
    intro u hu
    rcases List.mem_append.1 hu with hu | hu
    · exact ih u hu
    · rw [List.mem_singleton.1 hu]
      exact (hends _ hedge).2

end Grown

/-- What is so during a search that started from some infos: what a turf before the root gave or
took is what it is to transfer, and what the root has left pays for it. -/
structure Searching (zone : ZoneGraph ℚ) (start : InfoMap ℚ) (root : Nat) (search : Search ℚ) :
    Prop where
  grown : Grown zone.edges search.info.dir root search.queue
  present : ∀ u, (search.info u).isSome = true ↔ u ∈ zone.nodes
  synced : search.info root = some search.root
  still : search.root.currTransferDir = none
  account : ∀ u ∈ search.queue, u ≠ root →
    search.info.delta u + search.info.amount u = start.delta u
  untouched : ∀ u, u ∉ search.queue → search.info u = start u
  total : ∑ u ∈ zone.nodes.toFinset, search.info.delta u = ∑ u ∈ zone.nodes.toFinset, start.delta u

section Searching

variable {zone : ZoneGraph ℚ} {start : InfoMap ℚ} {root : Nat} {search : Search ℚ}
  {side : Side ℚ}

theorem sum_congr_pair {s : Finset Nat} {f g : Nat → ℚ} {u v : Nat} (hu : u ∈ s) (hv : v ∈ s)
    (huv : u ≠ v) (hpair : f u + f v = g u + g v)
    (hothers : ∀ x ∈ s, x ≠ u → x ≠ v → f x = g x) : ∑ x ∈ s, f x = ∑ x ∈ s, g x := by
  have hv' : v ∈ s.erase u := mem_erase.2 ⟨huv.symm, hv⟩
  rw [← add_sum_erase s f hu, ← add_sum_erase s g hu, ← add_sum_erase _ f hv',
    ← add_sum_erase _ g hv', ← add_assoc, ← add_assoc, hpair]
  congr 1
  refine sum_congr rfl fun x hx => ?_
  have hxv := ne_of_mem_erase hx
  have hx' := mem_of_mem_erase hx
  exact hothers x (mem_of_mem_erase hx') (ne_of_mem_erase hx') hxv

/-- Meeting a turf moves what it has between it and the root, and notes what it transfers. -/
theorem meet_spec (side : Side ℚ) (adjInfo root : MonstermosInfo ℚ)
    (hnone : adjInfo.currTransferAmount = 0) :
    (meet side adjInfo root).1.moleDelta + (meet side adjInfo root).1.currTransferAmount =
        adjInfo.moleDelta ∧
      (meet side adjInfo root).1.moleDelta + (meet side adjInfo root).2.moleDelta =
        adjInfo.moleDelta + root.moleDelta ∧
      (meet side adjInfo root).1.currTransferDir = adjInfo.currTransferDir ∧
      (meet side adjInfo root).2.currTransferDir = root.currTransferDir := by
  unfold meet
  split
  · split
    · simp [hnone]
    · simp [hnone, add_comm]
  · simp [hnone]

/-- A search with an unserved root finds a turf. -/
structure Finds (side : Side ℚ) (root cur adj : Nat) (adjInfo : MonstermosInfo ℚ)
    (search next : Search ℚ) : Prop where
  unserved : side.served search.root.moleDelta = false
  new : adj ∉ search.queue
  ne : adj ≠ root
  before : search.info adj = some adjInfo
  queue : next.queue = search.queue ++ [adj]
  others : ∀ u, u ≠ adj → u ≠ root → next.info u = search.info u
  met : next.info adj = some (meet side
    { adjInfo with currTransferDir := some cur, currTransferAmount := 0 } search.root).1
  paid : next.root = (meet side
    { adjInfo with currTransferDir := some cur, currTransferAmount := 0 } search.root).2
  synced : next.info root = some next.root
  present : ∀ u, (next.info u).isSome = (search.info u).isSome

/-- A visit changes nothing, because the root is served or the turf is not new, or finds a turf. -/
theorem Searching.visit_cases (h : Searching zone start root search) (side : Side ℚ)
    (cur : Nat) {adj : Nat} (hadjNode : adj ∈ zone.nodes) :
    (search.visit side root cur adj = search ∧
        (side.served search.root.moleDelta = true ∨ adj ∈ search.queue)) ∨
      ∃ adjInfo, Finds side root cur adj adjInfo search (search.visit side root cur adj) := by
  obtain ⟨adjInfo, hadj⟩ : ∃ adjInfo, search.info adj = some adjInfo :=
    Option.isSome_iff_exists.1 ((h.present adj).2 hadjNode)
  unfold Search.visit
  rw [hadj, exact_zero]
  dsimp only
  split
  · next hserved => exact .inl ⟨rfl, .inl hserved⟩
  · next hserved =>
    split
    · next hqueue =>
      simp only [InfoMap.modify_self h.synced]
      exact .inl ⟨trivial, .inr hqueue⟩
    · next hnew =>
      have hne : adj ≠ root := fun heq => hnew (heq ▸ h.grown.root_mem)
      refine .inr ⟨adjInfo, by simpa using hserved, hnew, hne, hadj, rfl, fun u hu huroot => ?_,
        ?_, rfl, ?_, fun u => ?_⟩
      · exact (InfoMap.modify_other huroot _).trans (InfoMap.modify_other hu _)
      · exact (InfoMap.modify_other hne _).trans (InfoMap.modify_same (by rw [hadj]; rfl) _)
      · exact InfoMap.modify_same ((InfoMap.isSome_modify ..).trans (by rw [h.synced]; rfl)) _
      · exact (InfoMap.isSome_modify ..).trans (InfoMap.isSome_modify ..)

theorem Searching.visit (hends : ∀ edge ∈ zone.edges, edge.1 ∈ zone.nodes ∧ edge.2 ∈ zone.nodes)
    (h : Searching zone start root search) (side : Side ℚ) {cur adj : Nat}
    (hcur : cur ∈ search.queue) (hedge : (cur, adj) ∈ zone.edges) :
    Searching zone start root (search.visit side root cur adj) := by
  rcases h.visit_cases side cur (hends _ hedge).2 with ⟨hsame, -⟩ | ⟨adjInfo, hfinds⟩
  · rw [hsame]
    exact h
  · generalize search.visit side root cur adj = next at hfinds ⊢
    have hroot := h.grown.root_mem
    have hrootNode : root ∈ zone.nodes := (h.present root).1 (by rw [h.synced]; rfl)
    obtain ⟨hpaid, hpair, hdir, hdir'⟩ := meet_spec side
      { adjInfo with currTransferDir := some cur, currTransferAmount := 0 } search.root rfl
    refine ⟨?_, fun u => ?_, hfinds.synced, ?_, fun u hu huroot => ?_, fun u hu => ?_, ?_⟩
    · rw [hfinds.queue]
      refine .found (h.grown.congr fun u hu => ?_) hcur hfinds.new hedge ?_
      · have huadj : u ≠ adj := fun heq => hfinds.new (heq ▸ hu)
        by_cases huroot : u = root
        · rw [huroot, InfoMap.dir_of hfinds.synced, InfoMap.dir_of h.synced, hfinds.paid, hdir']
        · exact InfoMap.dir_congr (hfinds.others u huadj huroot)
      · rw [InfoMap.dir_of hfinds.met, hdir]
    · rw [hfinds.present, h.present]
    · rw [hfinds.paid, hdir', h.still]
    · by_cases huadj : u = adj
      · rw [huadj, InfoMap.delta_of hfinds.met, InfoMap.amount_of hfinds.met, hpaid,
          ← InfoMap.delta_congr (h.untouched adj hfinds.new), InfoMap.delta_of hfinds.before]
      · have huqueue : u ∈ search.queue := by
          rw [hfinds.queue, List.mem_append, List.mem_singleton] at hu
          exact hu.resolve_right huadj
        rw [← h.account u huqueue huroot, InfoMap.delta_congr (hfinds.others u huadj huroot),
          InfoMap.amount_congr (hfinds.others u huadj huroot)]
    · rw [hfinds.queue, List.mem_append, not_or, List.mem_singleton] at hu
      have huroot : u ≠ root := fun heq => hu.1 (heq ▸ hroot)
      rw [hfinds.others u hu.2 huroot, h.untouched u hu.1]
    · rw [← h.total]
      refine sum_congr_pair (List.mem_toFinset.2 (hends _ hedge).2)
        (List.mem_toFinset.2 hrootNode) hfinds.ne ?_ fun u _ huadj huroot => ?_
      · rw [InfoMap.delta_of hfinds.met, InfoMap.delta_of hfinds.synced,
          InfoMap.delta_of hfinds.before, InfoMap.delta_of h.synced, hfinds.paid, hpair]
      · exact InfoMap.delta_congr (hfinds.others u huadj huroot)

theorem Searching.queue_visit (h : Searching zone start root search) (side : Side ℚ) (cur : Nat)
    {adj : Nat} (hadj : adj ∈ zone.nodes) :
    ∃ more, (search.visit side root cur adj).queue = search.queue ++ more := by
  rcases h.visit_cases side cur hadj with ⟨hsame, -⟩ | ⟨adjInfo, hfinds⟩
  · exact ⟨[], by rw [hsame, List.append_nil]⟩
  · exact ⟨[adj], hfinds.queue⟩

theorem Searching.mem_visit (h : Searching zone start root search) (side : Side ℚ) (cur : Nat)
    {adj u : Nat} (hadj : adj ∈ zone.nodes) (hu : u ∈ search.queue) :
    u ∈ (search.visit side root cur adj).queue := by
  obtain ⟨more, hqueue⟩ := h.queue_visit side cur hadj
  rw [hqueue]
  exact List.mem_append_left _ hu

theorem Searching.foldl_visit
    (hends : ∀ edge ∈ zone.edges, edge.1 ∈ zone.nodes ∧ edge.2 ∈ zone.nodes)
    (h : Searching zone start root search) (side : Side ℚ) {cur : Nat} {adjs : List Nat}
    (hcur : cur ∈ search.queue) (hadjs : ∀ adj ∈ adjs, (cur, adj) ∈ zone.edges) :
    Searching zone start root (adjs.foldl (Search.visit side root cur) search) := by
  induction adjs generalizing search with
  | nil => exact h
  | cons adj adjs ih =>
    have hedge := hadjs adj (List.mem_cons_self ..)
    exact ih (h.visit hends side hcur hedge) (h.mem_visit side cur (hends _ hedge).2 hcur)
      fun adj hadj => hadjs adj (List.mem_cons_of_mem _ hadj)

theorem Searching.run
    (hends : ∀ edge ∈ zone.edges, edge.1 ∈ zone.nodes ∧ edge.2 ∈ zone.nodes)
    {graph : ZoneGraph ℚ} (hedges : graph.edges = zone.edges) (side : Side ℚ)
    (fuel : Nat) {queueIdx : Nat} (h : Searching zone start root search) :
    Searching zone start root (Search.run side graph root fuel queueIdx search) := by
  induction fuel generalizing queueIdx search with
  | zero => exact h
  | succ fuel ih =>
    unfold Search.run
    rcases hcur : search.queue[queueIdx]? with _ | cur
    · exact h
    · dsimp only
      split
      · exact h
      · refine ih (h.foldl_visit hends side (List.mem_of_getElem? hcur) fun adj hadj => ?_)
        rwa [mem_neighbors, hedges] at hadj

end Searching

/-! ### Draining a queue -/

section Drain

variable {zone : ZoneGraph ℚ} {root : Nat} {info : InfoMap ℚ} {graph : ZoneGraph ℚ}

/-- What one turf sends on to the one it was found from. -/
structure Sends (zone : ZoneGraph ℚ) (a d : Nat) (info : InfoMap ℚ) (graph : ZoneGraph ℚ)
    (after : InfoMap ℚ × ZoneGraph ℚ) : Prop where
  nodes : after.2.nodes = zone.nodes
  edges : after.2.edges = zone.edges
  antisymmetric : Flow.Antisymmetric after.2.flow
  present : ∀ u, (after.1 u).isSome = (info u).isSome
  dir : after.1.dir = info.dir
  delta : ∀ u, after.1.delta u = info.delta u
  amount : ∀ u, u ≠ a → after.1.amount u = info.amount u + (if u = d then info.amount a else 0)
  netOut : ∀ u, after.2.netOut u =
    graph.netOut u + (if u = a then info.amount a else if u = d then -info.amount a else 0)

theorem sends_drainTurf (hwf : zone.WellFormed) {a d : Nat} (hne : a ≠ d)
    (hedge : (d, a) ∈ zone.edges) {aInfo dInfo : MonstermosInfo ℚ} (haInfo : info a = some aInfo)
    (hdInfo : info d = some dInfo) (hdir : info.dir a = some d) (hnodes : graph.nodes = zone.nodes)
    (hedges : graph.edges = zone.edges) (hanti : Flow.Antisymmetric graph.flow) :
    Sends zone a d info graph (drainTurf (info, graph) a) := by
  have hto : aInfo.currTransferDir = some d := by rw [← InfoMap.dir_of haInfo, hdir]
  have hamount := InfoMap.amount_of haInfo
  by_cases hzero : aInfo.currTransferAmount = 0
  · have hsame : drainTurf (info, graph) a = (info, graph) := by simp [drainTurf, haInfo, hzero]
    rw [hsame]
    rw [hzero] at hamount
    exact ⟨hnodes, hedges, hanti, fun _ => rfl, rfl, fun _ => rfl, by simp [hamount],
      by simp [hamount]⟩
  · obtain ⟨info', hinfo'⟩ : ∃ info', info' = (info.modify d { dInfo with
        currTransferAmount := dInfo.currTransferAmount + aInfo.currTransferAmount }).modify a
          { aInfo with currTransferAmount := 0 } := ⟨_, rfl⟩
    have hdrain : drainTurf (info, graph) a =
        (info', adjustEqMovement a d aInfo.currTransferAmount graph) := by
      simp [drainTurf, haInfo, hdInfo, hto, hzero, hinfo']
    have hat : ∀ u, u ≠ a → u ≠ d → info' u = info u := fun u hu hu' => by
      rw [hinfo', InfoMap.modify_other hu, InfoMap.modify_other hu']
    have hatA : info' a = some { aInfo with currTransferAmount := 0 } := by
      rw [hinfo', InfoMap.modify_same (by rw [InfoMap.isSome_modify, haInfo]; rfl)]
    have hatD : info' d = some { dInfo with
        currTransferAmount := dInfo.currTransferAmount + aInfo.currTransferAmount } := by
      rw [hinfo', InfoMap.modify_other hne.symm, InfoMap.modify_same (by rw [hdInfo]; rfl)]
    have hedge' : (a, d) ∈ zone.edges ∨ (d, a) ∈ zone.edges := .inr hedge
    rw [hdrain]
    refine ⟨by rw [nodes_adjustEqMovement, hnodes], by rw [edges_adjustEqMovement, hedges],
      antisymmetric_adjustEqMovement hanti hedges hedge' hne aInfo.currTransferAmount,
      fun u => ?_, ?_, fun u => ?_, fun u hua => ?_, fun u => ?_⟩
    · rw [hinfo', InfoMap.isSome_modify, InfoMap.isSome_modify]
    · funext u
      by_cases hua : u = a
      · rw [hua, InfoMap.dir_of hatA, InfoMap.dir_of haInfo]
      · by_cases hud : u = d
        · rw [hud, InfoMap.dir_of hatD, InfoMap.dir_of hdInfo]
        · exact InfoMap.dir_congr (hat u hua hud)
    · by_cases hua : u = a
      · rw [hua, InfoMap.delta_of hatA, InfoMap.delta_of haInfo]
      · by_cases hud : u = d
        · rw [hud, InfoMap.delta_of hatD, InfoMap.delta_of hdInfo]
        · exact InfoMap.delta_congr (hat u hua hud)
    · by_cases hud : u = d
      · rw [if_pos hud, hud, InfoMap.amount_of hatD, InfoMap.amount_of hdInfo, hamount]
      · rw [if_neg hud, add_zero, InfoMap.amount_congr (hat u hua hud)]
    · rw [hamount]
      exact netOut_adjustEqMovement hwf hnodes hedges hedge' hne aInfo.currTransferAmount u

/-- What draining a queue does: every turf but the root sends on what it is to transfer. -/
structure Drained (zone : ZoneGraph ℚ) (root : Nat) (queue : List Nat) (info : InfoMap ℚ)
    (graph : ZoneGraph ℚ) (after : InfoMap ℚ × ZoneGraph ℚ) : Prop where
  nodes : after.2.nodes = zone.nodes
  edges : after.2.edges = zone.edges
  antisymmetric : Flow.Antisymmetric after.2.flow
  present : ∀ u, (after.1 u).isSome = (info u).isSome
  delta : ∀ u, after.1.delta u = info.delta u
  sent : ∀ u ∈ queue, u ≠ root → after.2.netOut u = graph.netOut u + info.amount u
  others : ∀ u, u ∉ queue → after.2.netOut u = graph.netOut u

/-- A queue is drained from its end, so a turf sends on what those it found sent it. -/
theorem drained (hwf : zone.WellFormed) {queue : List Nat}
    (hgrown : Grown zone.edges info.dir root queue) (hpresent : ∀ u ∈ queue, (info u).isSome = true)
    (hroot : info.dir root = none) (hnodes : graph.nodes = zone.nodes)
    (hedges : graph.edges = zone.edges) (hanti : Flow.Antisymmetric graph.flow) :
    Drained zone root queue info graph (queue.reverse.foldl drainTurf (info, graph)) := by
  generalize hdir : info.dir = dir at hgrown
  induction hgrown generalizing info graph with
  | root =>
    obtain ⟨rootInfo, hrootInfo⟩ := Option.isSome_iff_exists.1
      (hpresent root (List.mem_singleton_self root))
    have hnone : rootInfo.currTransferDir = none := by rw [← InfoMap.dir_of hrootInfo, hroot]
    have hsame : drainTurf (info, graph) root = (info, graph) := by
      simp [drainTurf, hrootInfo, hnone]
    rw [List.reverse_singleton, List.foldl_cons, List.foldl_nil, hsame]
    refine ⟨hnodes, hedges, hanti, fun _ => rfl, fun _ => rfl, fun u hu hne => ?_, fun _ _ => rfl⟩
    exact absurd (List.mem_singleton.1 hu) hne
  | @found queue d a hqueue hd ha hedge hfrom ih =>
    subst hdir
    obtain ⟨aInfo, haInfo⟩ := Option.isSome_iff_exists.1 (hpresent a (by simp))
    obtain ⟨dInfo, hdInfo⟩ := Option.isSome_iff_exists.1 (hpresent d (List.mem_append_left _ hd))
    have hne : a ≠ d := fun heq => ha (heq ▸ hd)
    have hsends := sends_drainTurf hwf hne hedge haInfo hdInfo hfrom hnodes hedges hanti
    rw [List.reverse_append, List.reverse_singleton, List.singleton_append, List.foldl_cons]
    generalize drainTurf (info, graph) a = sent at hsends ⊢
    obtain ⟨info', graph'⟩ := sent
    have hrest := ih
      (fun u hu => (hsends.present u).trans (hpresent u (List.mem_append_left _ hu)))
      (by rw [hsends.dir, hroot]) hsends.nodes hsends.edges hsends.antisymmetric hsends.dir
    refine ⟨hrest.nodes, hrest.edges, hrest.antisymmetric,
      fun u => (hrest.present u).trans (hsends.present u),
      fun u => (hrest.delta u).trans (hsends.delta u), fun u hu huroot => ?_, fun u hu => ?_⟩
    · by_cases hua : u = a
      · rw [hua, hrest.others a ha, hsends.netOut, if_pos rfl]
      · have huqueue : u ∈ queue := by
          rcases List.mem_append.1 hu with hu | hu
          · exact hu
          · exact absurd (List.mem_singleton.1 hu) hua
        rw [hrest.sent u huqueue huroot, hsends.netOut, if_neg hua, hsends.amount u hua]
        split <;> ring
    · rw [List.mem_append, not_or, List.mem_singleton] at hu
      have hud : u ≠ d := fun heq => hu.1 (heq ▸ hd)
      rw [hrest.others u hu.1, hsends.netOut, if_neg hu.2, if_neg hud, add_zero]

end Drain

/-! ### One root -/

section Route

variable {zone : ZoneGraph ℚ} {surplus : Nat → ℚ} {info : InfoMap ℚ} {graph : ZoneGraph ℚ}
  {side : Side ℚ} {root : Nat} {found : MonstermosInfo ℚ}

/-- The info of a root when its search starts. -/
def MonstermosInfo.asRoot (found : MonstermosInfo ℚ) : MonstermosInfo ℚ :=
  { found with currTransferDir := none, currTransferAmount := 0.0 }

/-- The search of a root when its loop ends. -/
def searched (side : Side ℚ) (info : InfoMap ℚ) (graph : ZoneGraph ℚ) (root : Nat)
    (found : MonstermosInfo ℚ) : Search ℚ :=
  Search.run side graph root graph.nodes.length 0
    { queue := [root], info := info.modify root found.asRoot, root := found.asRoot }

theorem routeFrom_of_some (hroot : info root = some found) :
    routeFrom side (info, graph) root =
      (searched side info graph root found).queue.reverse.foldl drainTurf
        ((searched side info graph root found).info, graph) := by
  simp only [routeFrom, hroot]
  rfl

theorem routeFrom_of_none (hroot : info root = none) :
    routeFrom side (info, graph) root = (info, graph) := by
  simp only [routeFrom, hroot]

theorem Searching.start (hpresent : ∀ u, (info u).isSome = true ↔ u ∈ zone.nodes)
    (hroot : info root = some found) :
    Searching zone (info.modify root found.asRoot) root
      { queue := [root], info := info.modify root found.asRoot, root := found.asRoot } := by
  refine ⟨.root, fun u => ?_, InfoMap.modify_same (by rw [hroot]; rfl) _, rfl,
    fun u hu hne => ?_, fun u _ => rfl, rfl⟩
  · rw [InfoMap.isSome_modify, hpresent]
  · exact absurd (List.mem_singleton.1 hu) hne

theorem Books.searching (hwf : zone.WellFormed) (h : Books zone surplus (info, graph))
    (side : Side ℚ) (hroot : info root = some found) :
    Searching zone (info.modify root found.asRoot) root
      (searched side info graph root found) :=
  (Searching.start h.present hroot).run hwf.ends h.edges side _

/-- Making a turf the root of a search takes nothing from it. -/
theorem delta_asRoot (hroot : info root = some found) (u : Nat) :
    (info.modify root found.asRoot).delta u = info.delta u := by
  by_cases hu : u = root
  · rw [hu, InfoMap.delta_of (InfoMap.modify_same (by rw [hroot]; rfl) _), InfoMap.delta_of hroot]
    rfl
  · exact InfoMap.delta_congr (InfoMap.modify_other hu _)

theorem Books.drained (hwf : zone.WellFormed) (h : Books zone surplus (info, graph))
    (side : Side ℚ) (hroot : info root = some found) :
    Drained zone root (searched side info graph root found).queue
      (searched side info graph root found).info graph
      (routeFrom side (info, graph) root) := by
  have hsearching := h.searching hwf side hroot
  have hrootNode : root ∈ zone.nodes :=
    (h.present root).1 (Option.isSome_iff_exists.2 ⟨found, hroot⟩)
  rw [routeFrom_of_some hroot]
  refine Legacy.drained hwf hsearching.grown (fun u hu => ?_) ?_ h.nodes h.edges h.antisymmetric
  · exact (hsearching.present u).2 (hsearching.grown.subset hrootNode hwf.ends u hu)
  · rw [InfoMap.dir_of hsearching.synced, hsearching.still]

/-- **The books stay balanced** whatever one search does. -/
theorem Books.routeFrom (hwf : zone.WellFormed) {state : InfoMap ℚ × ZoneGraph ℚ}
    (h : Books zone surplus state) (side : Side ℚ) (root : Nat) :
    Books zone surplus (routeFrom side state root) := by
  obtain ⟨info, graph⟩ := state
  rcases hroot : info root with _ | found
  · rw [routeFrom_of_none hroot]
    exact h
  · have hsearching := h.searching hwf side hroot
    have hdrained := h.drained hwf side hroot
    have hrootNode : root ∈ zone.nodes :=
      (h.present root).1 (Option.isSome_iff_exists.2 ⟨found, hroot⟩)
    generalize searched side info graph root found = search at hsearching hdrained
    have hothers : ∀ u ∈ zone.nodes, u ≠ root →
        (Legacy.routeFrom side (info, graph) root).2.netOut u =
          surplus u - (Legacy.routeFrom side (info, graph) root).1.delta u := by
      intro u hu hne
      have hbooked := h.booked u hu
      dsimp only at hbooked
      rw [hdrained.delta]
      by_cases hqueue : u ∈ search.queue
      · have haccount := hsearching.account u hqueue hne
        rw [delta_asRoot hroot] at haccount
        rw [hdrained.sent u hqueue hne]
        linarith
      · rw [hdrained.others u hqueue, InfoMap.delta_congr (hsearching.untouched u hqueue),
          delta_asRoot hroot]
        linarith
    have hsum : ∑ u ∈ zone.nodes.toFinset,
        (surplus u - (Legacy.routeFrom side (info, graph) root).1.delta u) = 0 := by
      rw [sum_sub_distrib, sum_congr rfl fun u _ => hdrained.delta u, hsearching.total,
        sum_congr rfl fun u _ => delta_asRoot hroot u, ← h.sum_delta, sub_self]
    refine ⟨hdrained.nodes, hdrained.edges, fun u => ?_, hdrained.antisymmetric, fun u hu => ?_⟩
    · rw [hdrained.present, hsearching.present]
    · by_cases hne : u = root
      · -- what the others send out leaves this much for the root
        subst hne
        have hnet := Flow.netOut_of_others hdrained.antisymmetric (List.mem_toFinset.2 hrootNode)
          (fun v hv hne => by
            rw [← hothers v (List.mem_toFinset.1 hv) hne, ZoneGraph.netOut, hdrained.nodes]) hsum
        rw [ZoneGraph.netOut, hdrained.nodes, hnet]
        ring
      · rw [hothers u hu hne]
        ring

end Route

end Legacy

end Dogmos
