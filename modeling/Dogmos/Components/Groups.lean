import Dogmos.Components.Candidates
import Dogmos.Components.Kernels
import Dogmos.Exact.Amounts

/-!
# The search for excited groups

Excited groups grow from turf to turf as long as the pressures stay within a range, over all turfs
of a captured component that have a mixture.  Positions of turfs that any search found are marked,
so that no turf is looked at twice, whether it was accepted or not.

* `nodes_excitedNodes` — the turfs that are searched, each once.
* `Explores` — what one search keeps: the group is connected and its pressures are close.
* `explores_exploreGroup` — by induction on the queue.
-/

namespace Dogmos

open Exec Relation

namespace KernelView

variable {k : KernelView ℚ}

/-! ## The nodes -/

/-- A turf lists another one as its gas neighbour. -/
def Adjacent (k : KernelView ℚ) (source target : TurfHandle) : Prop :=
  ∃ neighbor ∈ k.gasNeighbors source, neighbor.handle = target

/-- The turfs with a mixture, each once. -/
structure NodesOf (k : KernelView ℚ) (nodes : ExcitedNodes) : Prop where
  captured : ∀ node ∈ nodes,
    node.1 ∈ k.handles ∧ (k.turf node.1).bind TurfRecord.mixture = some node.2
  distinct : (nodes.map fun node => node.1.slot).Nodup

/-- Nothing but the count of the yields changes. -/
def Idle (before after : ComponentProgress ℚ) : Prop :=
  after.transaction = before.transaction ∧ after.events = before.events

theorem Idle.refl (p : ComponentProgress ℚ) : Idle p p := ⟨rfl, rfl⟩

theorem Idle.trans {p q r : ComponentProgress ℚ} (h : Idle p q) (h' : Idle q r) : Idle p r :=
  ⟨h'.1.trans h.1, h'.2.trans h.2⟩

theorem idle_cooperate {p q : ComponentProgress ℚ} {result : Unit}
    (h : run (cooperate : ComponentM ℚ Unit) p = (.ok result, q)) : Idle p q := by
  cases h
  exact ⟨rfl, rfl⟩

theorem run_lift_eq_ok {α : Type} {result : Except WorldError α} {a : α}
    {p q : ComponentProgress ℚ} :
    run (lift result : ComponentM ℚ α) p = (.ok a, q) ↔ result = .ok a ∧ q = p :=
  run_check_eq_ok

/-- The turfs of the kernel by slot. -/
def Ordered (k : KernelView ℚ) (ordered : Std.TreeMap UInt32 (TurfHandle × MixtureHandle)) : Prop :=
  ∀ (slot : UInt32) (node : TurfHandle × MixtureHandle), ordered[slot]? = some node →
    node.1.slot = slot ∧ node.1 ∈ k.handles ∧
      (k.turf node.1).bind TurfRecord.mixture = some node.2

theorem positionOf_eq_some {nodes : ExcitedNodes} {handle : TurfHandle} {position : Nat}
    (h : positionOf nodes handle = some position) :
    ∃ node, nodes[position]? = some node ∧ node.1 = handle := by
  unfold positionOf at h
  split at h
  · split at h
    · next hhandle =>
      cases h
      exact Option.map_eq_some_iff.1 hhandle
    · cases h
  · cases h

/-! ## One search -/

/-- One turf leads to another that it lists, from a position that is accepted. -/
def Leads (k : KernelView ℚ) (nodes : ExcitedNodes) (accepted : List Nat) (i j : Nat) : Prop :=
  i ∈ accepted ∧ ∃ source target, nodes[i]? = some source ∧ nodes[j]? = some target ∧
    k.Adjacent source.1 target.1

/-- What one search keeps, from the marks of the searches before it. -/
structure Explores (k : KernelView ℚ) (nodes : ExcitedNodes) (marked : List Bool) (start : Nat)
    (search : GroupSearch ℚ) : Prop where
  marks : marked.length = nodes.length
  length : search.found.length = nodes.length
  grows : ∀ i : Nat, marked[i]? = some true → search.found[i]? = some true
  fresh : ∀ i ∈ search.accepted ++ search.queue,
    marked[i]? = some false ∧ search.found[i]? = some true
  nodup : (search.accepted ++ search.queue).Nodup
  reached : ∀ i ∈ search.accepted ++ search.queue,
    ReflTransGen (Leads k nodes search.accepted) start i
  few : search.accepted.length ≤ maxGroupTurfs
  held : ∀ i ∈ search.accepted, ∃ node record, nodes[i]? = some node ∧
    k.mixture node.2 = some record ∧ record.immutable = false ∧
    search.minimum ≤ mixturePressure record ∧ mixturePressure record ≤ search.maximum
  narrow : search.maximum - search.minimum < 1 / 2

section Explores

variable {nodes : ExcitedNodes} {marked : List Bool} {start : Nat} {search search' : GroupSearch ℚ}

theorem Leads.mono {accepted accepted' : List Nat} (h : ∀ i ∈ accepted, i ∈ accepted') {i j : Nat}
    (hleads : Leads k nodes accepted i j) : Leads k nodes accepted' i j :=
  ⟨h i hleads.1, hleads.2⟩

theorem explores_start (hlength : marked.length = nodes.length) (hnew : marked[start]? = some false)
    (pressure : ℚ) : Explores k nodes marked start
      { found := marked.set start true, queue := [start], accepted := [], minimum := pressure
        maximum := pressure } := by
  have hlt : start < marked.length := (List.getElem?_eq_some_iff.1 hnew).1
  refine ⟨hlength, (List.length_set ..).trans hlength, fun i hi => ?_, fun i hi => ?_,
    List.nodup_singleton _, fun i hi => ?_, Nat.zero_le _, fun i hi => (by cases hi), ?_⟩
  · dsimp only
    rw [List.getElem?_set]
    split
    · rfl
    · exact hi
  · cases List.mem_singleton.1 hi
    exact ⟨hnew, List.getElem?_set_self hlt⟩
  · cases List.mem_singleton.1 hi
    exact .refl
  · dsimp only
    norm_num

/-- The head of the queue is passed over. -/
theorem Explores.pass (h : Explores k nodes marked start search) {position : Nat} {rest : List Nat}
    (hqueue : search.queue = position :: rest) :
    Explores k nodes marked start { search with queue := rest } := by
  have hsub : (search.accepted ++ rest).Sublist (search.accepted ++ search.queue) := by
    rw [hqueue]
    exact (List.Sublist.refl _).append (List.sublist_cons_self ..)
  exact { h with
    fresh := fun i hi => h.fresh i (hsub.subset hi)
    nodup := h.nodup.sublist hsub
    reached := fun i hi => h.reached i (hsub.subset hi) }

/-- The head of the queue is accepted where the pressures stay close. -/
theorem Explores.accept (h : Explores k nodes marked start search) {position : Nat}
    {rest : List Nat} (hqueue : search.queue = position :: rest) {node : TurfHandle × MixtureHandle}
    {record : MixtureRecord ℚ} (hnode : nodes[position]? = some node)
    (hrecord : k.mixture node.2 = some record) (hmutable : record.immutable = false)
    (hroom : search.accepted.length < maxGroupTurfs)
    (hclose : max search.maximum (mixturePressure record) -
      min search.minimum (mixturePressure record) < 1 / 2) :
    Explores k nodes marked start
      { search with
        queue := rest
        accepted := search.accepted ++ [position]
        minimum := min search.minimum (mixturePressure record)
        maximum := max search.maximum (mixturePressure record) } := by
  have hall : search.accepted ++ [position] ++ rest = search.accepted ++ search.queue := by
    rw [hqueue, List.append_assoc, List.singleton_append]
  refine ⟨h.marks, h.length, h.grows, hall ▸ h.fresh, hall ▸ h.nodup, fun i hi => ?_, ?_,
    fun i hi => ?_, hclose⟩
  · exact (h.reached i (hall ▸ hi)).lift id fun a b =>
      Leads.mono fun i hi => List.mem_append_left _ hi
  · dsimp only
    rw [List.length_append, List.length_singleton]
    exact hroom
  · rcases List.mem_append.1 hi with hold | hnew
    · obtain ⟨other, found, hother, hfound, himmutable, hlow, hhigh⟩ := h.held i hold
      exact ⟨other, found, hother, hfound, himmutable, (min_le_left ..).trans hlow,
        hhigh.trans (le_max_left ..)⟩
    · cases List.mem_singleton.1 hnew
      exact ⟨node, record, hnode, hrecord, hmutable, min_le_right .., le_max_right ..⟩

/-- A neighbour of an accepted turf joins the queue. -/
theorem Explores.push (h : Explores k nodes marked start search) {i j : Nat}
    (hleads : Leads k nodes search.accepted i j) (hnew : search.found[j]? = some false) :
    Explores k nodes marked start
      { search with found := search.found.set j true, queue := search.queue ++ [j] } := by
  have hlt : j < search.found.length := (List.getElem?_eq_some_iff.1 hnew).1
  have hfound : ∀ i : Nat, search.found[i]? = some true →
      (search.found.set j true)[i]? = some true := by
    intro i hi
    rw [List.getElem?_set]
    split
    · rfl
    · exact hi
  have hmarked : marked[j]? = some false := by
    have hmark : j < marked.length := by
      rw [h.marks, ← h.length]
      exact hlt
    rcases hold : marked[j]? with _ | (_ | _)
    · exact absurd hmark (Nat.not_lt.2 (List.getElem?_eq_none_iff.1 hold))
    · rfl
    · have hgrown := h.grows j hold
      rw [hnew] at hgrown
      cases hgrown
  have hmem : ∀ i, i ∈ search.accepted ++ (search.queue ++ [j]) ↔
      i ∈ search.accepted ++ search.queue ∨ i = j := by
    intro i
    rw [← List.append_assoc, List.mem_append, List.mem_singleton]
  refine ⟨h.marks, (List.length_set ..).trans h.length, fun i hi => hfound i (h.grows i hi),
    fun i hi => ?_, ?_, fun i hi => ?_, h.few, h.held, h.narrow⟩
  · rcases (hmem i).1 hi with hold | rfl
    · exact ⟨(h.fresh i hold).1, hfound i (h.fresh i hold).2⟩
    · exact ⟨hmarked, List.getElem?_set_self hlt⟩
  · dsimp only
    rw [← List.append_assoc, List.nodup_append]
    refine ⟨h.nodup, List.nodup_singleton j, fun i hi other hother heq => ?_⟩
    cases heq.trans (List.mem_singleton.1 hother)
    have hold := (h.fresh _ hi).2
    rw [hnew] at hold
    cases hold
  · rcases (hmem i).1 hi with hold | rfl
    · exact h.reached i hold
    · exact (h.reached _ (List.mem_append_left _ hleads.1)).tail hleads

theorem Explores.neighbors (h : Explores k nodes marked start search) {position : Nat}
    {node : TurfHandle × MixtureHandle} (hnode : nodes[position]? = some node)
    (hposition : position ∈ search.accepted) :
    Explores k nodes marked start (k.enqueueNeighbors nodes node.1 search) := by
  -- what was accepted stays accepted while the neighbours of the node are queued
  suffices hqueued : position ∈ (k.enqueueNeighbors nodes node.1 search).accepted ∧
      Explores k nodes marked start (k.enqueueNeighbors nodes node.1 search) from hqueued.2
  unfold enqueueNeighbors
  refine List.foldlRecOn (motive := fun (search : GroupSearch ℚ) => position ∈ search.accepted ∧
    Explores k nodes marked start search) _ _ ⟨hposition, h⟩
      fun search hsearch neighbor hneighbor => ?_
  obtain ⟨hposition, h⟩ := hsearch
  rcases hplace : positionOf nodes neighbor.handle with _ | place
  · exact ⟨hposition, h⟩
  dsimp only
  split
  · exact ⟨hposition, h⟩
  · next hnew =>
    obtain ⟨target, htarget, hname⟩ := positionOf_eq_some hplace
    refine ⟨hposition, h.push ⟨hposition, node, target, hnode, htarget, neighbor, hneighbor,
      hname.symm⟩ ?_⟩
    rcases hfound : search.found[place]? with _ | (_ | _)
    · rw [hfound] at hnew
      exact absurd rfl hnew
    · rfl
    · rw [hfound] at hnew
      exact absurd rfl hnew

/-- **One search** keeps its group connected and its pressures close. -/
theorem explores_exploreGroup : ∀ {steps : Nat} {search : GroupSearch ℚ}
    {p p' : ComponentProgress ℚ}, Explores k nodes marked start search →
    run (k.exploreGroup nodes steps search) p = (.ok search', p') →
    Explores k nodes marked start search' ∧ Idle p p' := by
  intro steps
  induction steps with
  | zero =>
    intro search p p' h hrun
    cases hrun
    exact ⟨h, .refl p⟩
  | succ steps ih =>
    intro search p p' h hrun
    unfold exploreGroup at hrun
    rcases hqueue : search.queue with _ | ⟨position, rest⟩
    · rw [hqueue] at hrun
      cases hrun
      exact ⟨h, .refl p⟩
    rw [hqueue] at hrun
    dsimp only at hrun
    split at hrun
    · cases hrun
      exact ⟨h, .refl p⟩
    next hroom =>
    rw [run_bind_eq_ok] at hrun
    obtain ⟨_, q, hpoll, hrun⟩ := hrun
    have hidle := idle_cooperate hpoll
    rcases hnode : nodes[position]? with _ | ⟨handle, mixtureHandle⟩
    · rw [hnode] at hrun
      cases hrun
      exact ⟨h, hidle⟩
    rw [hnode] at hrun
    dsimp only at hrun
    rw [run_bind_eq_ok] at hrun
    obtain ⟨record, _, hrecord, hrun⟩ := hrun
    obtain ⟨hrecord, rfl⟩ := run_lift_eq_ok.1 hrecord
    have hmixture : k.mixture mixtureHandle = some record := by
      unfold requireHandle at hrecord
      split at hrecord
      · next hsome =>
        cases hrecord
        exact hsome
      · cases hrecord
    split at hrun
    · obtain ⟨hafter, hrest⟩ := ih (h.pass hqueue) hrun
      exact ⟨hafter, hidle.trans hrest⟩
    next hmutable =>
    split at hrun
    · obtain ⟨hafter, hrest⟩ := ih (h.pass hqueue) hrun
      exact ⟨hafter, hidle.trans hrest⟩
    next hfar =>
    have hclose : max search.maximum (mixturePressure record) -
        min search.minimum (mixturePressure record) < 1 / 2 := by
      have hgoal : (excitedGroupPressureGoalKpa : ℚ) = 1 / 2 := by
        norm_num [excitedGroupPressureGoalKpa]
      rw [hgoal, not_le, Exact.fabs_eq] at hfar
      exact (le_abs_self _).trans_lt hfar
    have haccepted := h.accept hqueue hnode hmixture (Bool.eq_false_iff.2 hmutable)
      (Nat.lt_of_not_le hroom) hclose
    obtain ⟨hafter, hrest⟩ := ih (haccepted.neighbors hnode (by simp)) hrun
    exact ⟨hafter, hidle.trans hrest⟩

end Explores

end KernelView

end Dogmos
