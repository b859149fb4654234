import Dogmos.Exact.HeatWalk

/-!
# Conduction of a heat stage

Once the edges are known, the stage chooses a number of substeps from the largest row sum and then
conducts along the edges, in place and one at a time, as often as there are substeps.  In a substep
no edge moves an end past the other, because its share is at most a row sum scaled to one
(`gentle_link`), and both ends move by the same energy (`balanced_link`).  So every state
of a run keeps the energy of the captured turfs and stays between the captured temperatures
(`conduction_stable`).
-/

namespace Dogmos

open DogmosWorld Exec Relaxation Finset

/-! ## The nodes before conduction -/

section Nodes

variable {w : DogmosWorld ℚ} {ready : StageHeatState ℚ}

/-- Neither radiation nor a mixture takes part. -/
def Plain (node : StageHeatNode ℚ) : Prop :=
  node.mixture = none ∧ node.heat.adjacentToSpace = false

/-- The computation of a node without radiation and mixture leaves the numbers of the scratch. -/
theorem leaves_computeNextHeatNode {seconds : ℚ} (hready : HeatReady ready)
    (hplain : ∀ node ∈ ready.nodes, Plain node) (hstate : w.stageHeat = some ready) :
    Leaves w (computeNextHeatNode (D := ℚ) seconds) fun _ v => v.topology = w.topology ∧
      ∃ state, v.stageHeat = some state ∧ HeatReady state ∧ state.nodes = ready.nodes := by
  have hcomputed : Leaves w (computeStageHeatNode (D := ℚ) ready.nextNode seconds) fun _ v =>
      v.topology = w.topology ∧ ∃ events, v.stageHeat = some { ready with stagedEvents := events } := by
    unfold computeStageHeatNode
    refine leaves_heatState_bind hstate (leaves_get_bind ?_)
    rcases hnode : ready.nodes[ready.nextNode]? with _ | node
    · exact leaves_pure ⟨rfl, ready.stagedEvents, hstate⟩
    · obtain ⟨hmixture, hcovered⟩ := hplain node (List.mem_of_getElem? hnode)
      have htemperature : ready.temperatures[ready.nextNode]? = some node.heat.temperature := by
        rw [hready.temperatures, List.getElem?_map, hnode]
        rfl
      obtain ⟨hlt, hget⟩ := List.getElem?_eq_some_iff.1 htemperature
      have hset : ready.temperatures.set ready.nextNode node.heat.temperature =
          ready.temperatures := by
        rw [← hget, List.set_getElem_self]
      rw [htemperature]
      dsimp only [Option.getD_some]
      rw [radiate_of_covered _ hcovered, hmixture]
      dsimp only
      rw [pure_bind]
      refine leaves_heatState_bind hstate (leaves_modify ⟨rfl, ?_⟩)
      dsimp only
      rw [hset]
      exact ⟨_, rfl⟩
  unfold computeNextHeatNode
  refine leaves_heatState_bind hstate (leaves_bind hcomputed ?_)
  rintro _ v ⟨htopology, events, hv⟩
  refine leaves_heatState_bind hv (leaves_modify ⟨htopology, _, rfl, ?_, rfl⟩)
  exact ⟨hready.indexed, hready.temperatures, hready.conductivities, hready.heatCapacities,
    hready.rowSums, hready.edges, hready.maximumRowSum, hready.topologyNode,
    hready.topologyNeighbor, hready.substeps, hready.substep, hready.edge⟩

end Nodes

/-! ## Substeps -/

/-- The edge as a link, with the shares of one substep. -/
def HeatEdge.link (scale : ℚ) (edge : HeatEdge ℚ) : Link Nat ℚ :=
  ⟨edge.first, edge.second, edge.firstWeight * scale, edge.secondWeight * scale⟩

theorem valueAt_conductEdge {state : StageHeatState ℚ} {edge : HeatEdge ℚ}
    (hfirst : edge.first < state.temperatures.length)
    (hsecond : edge.second < state.temperatures.length) :
    (conductEdge state edge).length = state.temperatures.length ∧
      valueAt (conductEdge state edge) =
        (edge.link state.conductionScale).relax (valueAt state.temperatures) := by
  unfold conductEdge
  simp only [valueAt_eq, List.length_set, true_and]
  have hlength : edge.second < (state.temperatures.set edge.first
      (valueAt state.temperatures edge.first +
        (valueAt state.temperatures edge.second - valueAt state.temperatures edge.first) *
          (edge.firstWeight * state.conductionScale))).length := by
    rwa [List.length_set]
  rw [valueAt_set hlength, valueAt_set hfirst]
  rfl

section Conducting

variable {w v : DogmosWorld ℚ} {topology : PackedTopology} {ready walked state : StageHeatState ℚ}
  {substeps : UInt32} {scale : ℚ} {applied : List (HeatEdge ℚ)}

/-- What the preparation of conduction leaves: so many substeps that no scaled row sum is more
than one. -/
theorem leaves_prepareStageHeatConduction {seconds : ℚ} (hready : HeatReady ready)
    (h : Walked topology ready walked) (hseconds : 0 < seconds)
    (hstate : w.stageHeat = some walked) :
    Leaves w (prepareStageHeatConduction seconds) fun _ v => ∃ substeps scale,
      v.stageHeat = some
        { walked with conductionSubsteps := some substeps, conductionScale := scale } ∧
      1 ≤ substeps.toNat ∧ 0 ≤ scale ∧ walked.maximumRowSum * scale ≤ 1 := by
  have hnone : walked.conductionSubsteps = none := by
    have hframe := congrArg StageHeatState.conductionSubsteps h.frame
    exact hframe.trans hready.substeps
  unfold prepareStageHeatConduction
  refine leaves_heatState_bind hstate ?_
  rw [hnone, Option.isSome_none, if_neg Bool.false_ne_true]
  dsimp only
  refine leaves_ite (fun _ => leaves_throw _) fun hfew => leaves_modify ?_
  simp only [Exact.isFinite_eq, Bool.not_true, Bool.false_or, Exact.ofNat_eq,
    maxConductionSubsteps] at hfew
  have hsmall := not_lt.1 (of_decide_eq_false (Bool.eq_false_of_not_eq_true hfew))
  obtain ⟨hone, hscaled⟩ := toU32_ceil (by exact_mod_cast hsmall)
  refine ⟨_, _, rfl, hone, ?_, ?_⟩
  · rw [exact_baseHeatStepSeconds, Exact.ofNat_eq]
    positivity
  · rw [Exact.ofNat_eq, ← mul_div_assoc]
    exact div_le_one_of_le₀ hscaled (Nat.cast_nonneg _)

/-- What conduction did so far: `applied` are the edges that conducted, in order. -/
structure Conducting (walked : StageHeatState ℚ) (substeps : UInt32) (scale : ℚ)
    (applied : List (HeatEdge ℚ)) (state : StageHeatState ℚ) : Prop where
  frame : state = { walked with
    conductionSubsteps := some substeps
    conductionScale := scale
    temperatures := state.temperatures
    conductionSubstep := state.conductionSubstep
    conductionEdge := state.conductionEdge }
  length : state.temperatures.length = walked.temperatures.length
  temperatures : valueAt state.temperatures =
    relaxAll (applied.map (HeatEdge.link scale)) (valueAt walked.temperatures)
  applied : applied = (List.replicate state.conductionSubstep.toNat walked.edges).flatten ++
    walked.edges.take state.conductionEdge
  position : state.conductionSubstep.toNat < substeps.toNat ∧
      (state.conductionEdge < walked.edges.length ∨ walked.edges = []) ∨
    state.conductionSubstep = substeps ∧ state.conductionEdge = 0

theorem conducting_start (hready : HeatReady ready) (h : Walked topology ready walked)
    (hsubsteps : 1 ≤ substeps.toNat) :
    Conducting walked substeps scale []
      { walked with conductionSubsteps := some substeps, conductionScale := scale } := by
  have hsubstep : walked.conductionSubstep = 0 := by
    have hframe := congrArg StageHeatState.conductionSubstep h.frame
    exact hframe.trans hready.substep
  have hedge : walked.conductionEdge = 0 := by
    have hframe := congrArg StageHeatState.conductionEdge h.frame
    exact hframe.trans hready.edge
  refine ⟨rfl, rfl, rfl, ?_, .inl ⟨?_, ?_⟩⟩
  · simp [hsubstep, hedge]
  · rw [hsubstep]
    exact hsubsteps
  · rw [hedge]
    rcases walked.edges with _ | ⟨edge, rest⟩
    · exact .inr rfl
    · exact .inl (by simp)

/-- **One unit of conduction**: the next edge conducts. -/
theorem Conducting.advance (h : Conducting walked substeps scale applied state)
    (hedges : ∀ edge ∈ walked.edges, edge.first < edge.second ∧
      edge.second < walked.temperatures.length)
    (hstate : w.stageHeat = some state) {edge : HeatEdge ℚ}
    (hedge : state.edges[state.conductionEdge]? = some edge) :
    Leaves w (advanceStageHeatConduction (F := ℚ)) fun worked v => worked = true →
      v.topology = w.topology ∧ ∃ state', v.stageHeat = some state' ∧
        Conducting walked substeps scale (applied ++ [edge]) state' := by
  have hsame : state.edges = walked.edges := by
    have hframe := congrArg StageHeatState.edges h.frame
    exact hframe
  have hscale : state.conductionScale = scale := by
    have hframe := congrArg StageHeatState.conductionScale h.frame
    exact hframe
  have hcount : state.conductionSubsteps = some substeps := by
    have hframe := congrArg StageHeatState.conductionSubsteps h.frame
    exact hframe
  unfold advanceStageHeatConduction
  refine leaves_get_bind (leaves_ite (fun _ => leaves_pure fun hfalse => by cases hfalse)
    fun hrunning => ?_)
  refine leaves_heatState_bind hstate ?_
  rw [hedge]
  dsimp only [setHeat]
  refine leaves_modify_bind (leaves_pure fun _ => ⟨rfl, _, rfl, ?_⟩)
  rw [hsame] at hedge
  obtain ⟨hlt, hsecond⟩ := hedges edge (List.mem_of_getElem? hedge)
  rw [← h.length] at hsecond
  obtain ⟨hlength, hvalues⟩ := @valueAt_conductEdge state edge (hlt.trans hsecond) hsecond
  -- the run was not complete, so a substep was left
  have hleft : state.conductionSubstep.toNat < substeps.toNat := by
    rcases h.position with ⟨hleft, -⟩ | ⟨hdone, -⟩
    · exact hleft
    · refine absurd ?_ hrunning
      unfold stageHeatConductionComplete conductionComplete
      rw [hstate, Option.any_some, hcount, Option.any_some, hdone]
      simp
  have hinside : state.conductionEdge < walked.edges.length := (List.getElem?_eq_some_iff.1 hedge).1
  have hnext : (state.conductionSubstep + 1).toNat = state.conductionSubstep.toNat + 1 := by
    rw [UInt32.toNat_add]
    have hbound := substeps.toNat_lt
    show (state.conductionSubstep.toNat + 1) % 2 ^ 32 = _
    rw [Nat.mod_eq_of_lt (by omega)]
  have htake : walked.edges.take (state.conductionEdge + 1) =
      walked.edges.take state.conductionEdge ++ [edge] := by
    rw [List.take_add_one, hedge]
    rfl
  refine ⟨?_, hlength.trans h.length, ?_, ?_, ?_⟩
  · dsimp only
    rw [h.frame]
  · dsimp only
    rw [hvalues, h.temperatures, hscale, List.map_append, relaxAll_append]
    rfl
  · dsimp only
    rw [h.applied, List.append_assoc, ← htake]
    by_cases hlast : state.conductionEdge + 1 = state.edges.length
    · rw [if_pos hlast, if_pos hlast, hnext, List.replicate_succ', List.flatten_append, hlast, hsame]
      simp
    · rw [if_neg hlast, if_neg hlast]
  · dsimp only
    by_cases hlast : state.conductionEdge + 1 = state.edges.length
    · rw [if_pos hlast, if_pos hlast]
      rcases Nat.lt_or_ge (state.conductionSubstep + 1).toNat substeps.toNat with hmore | hnone
      · exact .inl ⟨hmore, .inl (by omega)⟩
      · refine .inr ⟨UInt32.toNat_inj.1 ?_, rfl⟩
        omega
    · rw [if_neg hlast, if_neg hlast]
      rw [hsame] at hlast
      exact .inl ⟨hleft, .inl (by omega)⟩

theorem Conducting.applied_initial (h : Conducting walked substeps scale applied state) :
    applied <+: (List.replicate substeps.toNat walked.edges).flatten ∧
      (conductionComplete state = true →
        applied = (List.replicate substeps.toNat walked.edges).flatten) := by
  have hedges : state.edges = walked.edges := by
    have hframe := congrArg StageHeatState.edges h.frame
    exact hframe
  have hcount : state.conductionSubsteps = some substeps := by
    have hframe := congrArg StageHeatState.conductionSubsteps h.frame
    exact hframe
  rcases h.position with ⟨hleft, hinside⟩ | ⟨hdone, hedge⟩
  · obtain ⟨rest, hrest⟩ := Nat.exists_eq_add_of_lt hleft
    constructor
    · rw [h.applied, hrest, Nat.add_assoc, List.replicate_add, List.flatten_append]
      refine List.prefix_append_right_inj _ |>.2 ?_
      rw [Nat.add_comm, List.replicate_add, List.flatten_append]
      refine List.IsPrefix.trans (List.take_prefix _ _) ?_
      simp
    · intro hcomplete
      unfold conductionComplete at hcomplete
      rw [hcount, Option.any_some, hedges, Bool.or_eq_true, List.isEmpty_iff, decide_eq_true_eq,
        UInt32.le_iff_toNat_le] at hcomplete
      rcases hcomplete with hnone | hdone
      · rw [h.applied, hnone]
        simp
      · omega
  · have happlied : applied = (List.replicate substeps.toNat walked.edges).flatten := by
      rw [h.applied, hdone, hedge]
      simp
    exact ⟨happlied ▸ List.prefix_rfl, fun _ => happlied⟩

/-- No edge moves an end past the other in a substep. -/
theorem gentle_link (h : Walked topology ready walked) (hscale : 0 ≤ scale)
    (hscaled : walked.maximumRowSum * scale ≤ 1) {edge : HeatEdge ℚ} (hedge : edge ∈ walked.edges) :
    (edge.link scale).Gentle := by
  obtain ⟨hfirst, hsecond⟩ := h.nonneg edge hedge
  obtain ⟨hfirst', hsecond'⟩ := h.covered edge hedge
  refine ⟨⟨mul_nonneg hfirst hscale, ?_⟩, ⟨mul_nonneg hsecond hscale, ?_⟩⟩
  · exact (mul_le_mul_of_nonneg_right (hfirst'.trans (h.bounded _).2) hscale).trans hscaled
  · exact (mul_le_mul_of_nonneg_right (hsecond'.trans (h.bounded _).2) hscale).trans hscaled

/-- Both ends of an edge move by the same energy. -/
theorem balanced_link (hready : HeatReady ready) (h : Walked topology ready walked)
    (hcapacities : ∀ node ∈ ready.nodes, 0 < node.heat.heatCapacity ∧
      node.heat.heatCapacity < 10 ^ 30) {edge : HeatEdge ℚ} (hedge : edge ∈ walked.edges) :
    (edge.link scale).Balanced (valueAt ready.heatCapacities) := by
  have hcapacity : ∀ i, i < ready.nodes.length → 0 < valueAt ready.heatCapacities i ∧
      valueAt ready.heatCapacities i < 10 ^ 30 := by
    intro i hi
    rw [hready.heatCapacities, valueAt, List.getElem?_map, List.getElem?_eq_getElem hi]
    exact hcapacities _ (List.getElem_mem hi)
  obtain ⟨hlt, hlength⟩ := h.distinct edge hedge
  obtain ⟨hfirst, hsecond⟩ := h.weights edge hedge
  obtain ⟨hpos, hfinite⟩ := hcapacity edge.first (hlt.trans hlength)
  obtain ⟨hpos', hfinite'⟩ := hcapacity edge.second hlength
  unfold HeatEdge.link Link.Balanced
  dsimp only
  rw [hfirst, hsecond, ← mul_assoc, ← mul_assoc]
  exact congrArg (· * scale) (rowWeight_balanced hpos hpos' hfinite hfinite')

end Conducting

/-! ## Runs -/

/-- Units of a phase that succeed, one after the other. -/
def UnitsOf {α : Type} (m : WorldM ℚ α) : DogmosWorld ℚ → DogmosWorld ℚ → Prop :=
  Relation.ReflTransGen fun w v => ∃ a, run m w = (.ok a, v)

/-- The edge that conducts next. -/
def DogmosWorld.nextHeatEdge (w : DogmosWorld ℚ) : Option (HeatEdge ℚ) :=
  w.stageHeat.bind fun state => state.edges[state.conductionEdge]?

/-- Units of conduction that succeed, one after the other, with the edges that conduct. -/
inductive ConductionRun (w : DogmosWorld ℚ) : List (HeatEdge ℚ) → DogmosWorld ℚ → Prop
  | start : ConductionRun w [] w
  | next {applied : List (HeatEdge ℚ)} {u v : DogmosWorld ℚ} {edge : HeatEdge ℚ}
      (h : ConductionRun w applied u) (hedge : u.nextHeatEdge = some edge)
      (hrun : run advanceStageHeatConduction u = (.ok true, v)) :
      ConductionRun w (applied ++ [edge]) v

section Runs

variable {w₀ w₁ w₂ w₃ w v : DogmosWorld ℚ} {captured ready walked : StageHeatState ℚ}
  {substeps : UInt32} {scale seconds : ℚ} {applied : List (HeatEdge ℚ)}

theorem UnitsOf.computed (h : UnitsOf (computeNextHeatNode (D := ℚ) seconds) w v)
    (hstate : w.stageHeat = some captured) (hready : HeatReady captured)
    (hplain : ∀ node ∈ captured.nodes, Plain node) :
    v.topology = w.topology ∧ ∃ ready, v.stageHeat = some ready ∧ HeatReady ready ∧
      ready.nodes = captured.nodes := by
  induction h with
  | refl => exact ⟨rfl, captured, hstate, hready, rfl⟩
  | tail _ hunit ih =>
    obtain ⟨htopology, ready, hfound, h, hnodes⟩ := ih
    obtain ⟨_, hrun⟩ := hunit
    obtain ⟨htopology', ready', hfound', h', hnodes'⟩ :=
      leaves_computeNextHeatNode h (by rwa [hnodes]) hfound _ _ hrun
    exact ⟨htopology'.trans htopology, ready', hfound', h', hnodes'.trans hnodes⟩

theorem UnitsOf.walks (h : UnitsOf (advanceStageHeatTopology (F := ℚ)) w v)
    (hstate : w.stageHeat = some ready) (hready : HeatReady ready) :
    v.topology = w.topology ∧ ∃ walked, v.stageHeat = some walked ∧
      Walked w.topology ready walked := by
  induction h with
  | refl => exact ⟨rfl, ready, hstate, hready.walked w.topology⟩
  | tail _ hunit ih =>
    obtain ⟨htopology, walked, hfound, h⟩ := ih
    obtain ⟨_, hrun⟩ := hunit
    rw [← htopology] at h
    obtain ⟨walked', rfl, h'⟩ := h.advance hready hfound _ _ hrun
    rw [htopology] at h'
    exact ⟨htopology, walked', rfl, h'⟩

theorem ConductionRun.conducting (h : ConductionRun w applied v)
    (hstart : ∃ state, w.stageHeat = some state ∧ Conducting walked substeps scale [] state)
    (hedges : ∀ edge ∈ walked.edges, edge.first < edge.second ∧
      edge.second < walked.temperatures.length) :
    ∃ state, v.stageHeat = some state ∧ Conducting walked substeps scale applied state := by
  induction h with
  | start => exact hstart
  | next _ hedge hrun ih =>
    obtain ⟨state, hstate, hconducting⟩ := ih
    unfold nextHeatEdge at hedge
    rw [hstate, Option.bind_some] at hedge
    obtain ⟨-, state', hstate', h'⟩ := hconducting.advance hedges hstate hedge _ _ hrun rfl
    exact ⟨state', hstate', h'⟩

/-- **Conduction of a heat stage** keeps the energy of the captured turfs and their extrema in
every state, and uses each pair of captured neighbours once in a substep. -/
theorem conduction_stable (hwired : Wired w₀) (hcaptured : w₀.stageHeat = some captured)
    (hready : HeatReady captured) (hplain : ∀ node ∈ captured.nodes, Plain node)
    (hvalid : ∀ node ∈ captured.nodes, 0 < node.heat.heatCapacity ∧
      node.heat.heatCapacity < 10 ^ 30)
    (hseconds : 0 < seconds) (hcompute : UnitsOf (computeNextHeatNode (D := ℚ) seconds) w₀ w₁)
    (hwalk : UnitsOf (advanceStageHeatTopology (F := ℚ)) w₁ w₂)
    (hdone : w₂.stageHeatTopologyComplete = true)
    (hprepare : run (prepareStageHeatConduction seconds) w₂ = (.ok (), w₃))
    (hconduct : ConductionRun w₃ applied w) :
    ∃ (state : StageHeatState ℚ) (edges : List (HeatEdge ℚ)) (substeps : Nat),
      w.stageHeat = some state ∧
      ∑ i ∈ range captured.nodes.length,
          valueAt captured.heatCapacities i * valueAt state.temperatures i =
        ∑ i ∈ range captured.nodes.length,
          valueAt captured.heatCapacities i * valueAt captured.temperatures i ∧
      (∀ lo hi, (∀ temperature ∈ captured.temperatures, temperature ∈ Set.Icc lo hi) →
        ∀ temperature ∈ state.temperatures, temperature ∈ Set.Icc lo hi) ∧
      (edges.map HeatEdge.pair).Nodup ∧
      (∀ i j, (i, j) ∈ edges.map HeatEdge.pair ↔ i < j ∧ HeatLinked w₀.topology captured i j) ∧
      (∀ i j, HeatLinked w₀.topology captured i j → HeatLinked w₀.topology captured j i) ∧
      applied <+: (List.replicate substeps edges).flatten ∧
      (w.stageHeatConductionComplete = true → applied = (List.replicate substeps edges).flatten) := by
  obtain ⟨htopology₁, ready, hstate₁, hready₁, hnodes⟩ := hcompute.computed hcaptured hready hplain
  obtain ⟨htopology₂, walked, hstate₂, hwalked⟩ := hwalk.walks hstate₁ hready₁
  obtain ⟨substeps, scale, hstate₃, hone, hscale, hscaled⟩ :=
    leaves_prepareStageHeatConduction hready₁ hwalked hseconds hstate₂ _ _ hprepare
  rw [htopology₁] at hwalked
  have htemperatures : walked.temperatures = captured.temperatures := by
    have hframe := congrArg StageHeatState.temperatures hwalked.frame
    refine hframe.trans ?_
    rw [hready.temperatures, hready₁.temperatures, hnodes]
  have hlength : walked.temperatures.length = captured.nodes.length := by
    rw [htemperatures, hready.temperatures, List.length_map]
  have hends : ∀ edge ∈ walked.edges, edge.first < edge.second ∧
      edge.second < walked.temperatures.length := by
    intro edge hedge
    obtain ⟨hlt, hsecond⟩ := hwalked.distinct edge hedge
    rw [hnodes, ← hlength] at hsecond
    exact ⟨hlt, hsecond⟩
  obtain ⟨state, hstate, hconducting⟩ := hconduct.conducting
    ⟨_, hstate₃, conducting_start hready₁ hwalked hone⟩ hends
  obtain ⟨hinitial, hfinished⟩ := hconducting.applied_initial
  have happlied : ∀ edge ∈ applied, edge ∈ walked.edges := by
    intro edge hedge
    obtain ⟨edges, hedges, hmem⟩ := List.mem_flatten.1 (hinitial.subset hedge)
    rwa [List.eq_of_mem_replicate hedges] at hmem
  have hcomplete : captured.nodes.length ≤ walked.nextTopologyNode := by
    unfold stageHeatTopologyComplete at hdone
    rw [hstate₂, Option.any_some, decide_eq_true_eq, hwalked.nodes, hnodes] at hdone
    exact hdone
  have hlinked : ∀ i j, HeatLinked w₀.topology ready i j ↔ HeatLinked w₀.topology captured i j := by
    intro i j
    unfold HeatLinked
    rw [hnodes]
  have hcapacities : ready.heatCapacities = captured.heatCapacities := by
    rw [hready.heatCapacities, hready₁.heatCapacities, hnodes]
  -- the links of the edges that conducted
  have hlinks : ∀ link ∈ applied.map (HeatEdge.link scale), ∃ edge ∈ walked.edges,
      link = edge.link scale := by
    intro link hlink
    obtain ⟨edge, hedge, rfl⟩ := List.mem_map.1 hlink
    exact ⟨edge, happlied edge hedge, rfl⟩
  have hdistinct : ∀ link ∈ applied.map (HeatEdge.link scale), link.first ≠ link.second := by
    intro link hlink
    obtain ⟨edge, hedge, rfl⟩ := hlinks link hlink
    exact (hends edge hedge).1.ne
  have hclosed : Closed (applied.map (HeatEdge.link scale)) ↑(range captured.nodes.length) := by
    intro link hlink
    obtain ⟨edge, hedge, rfl⟩ := hlinks link hlink
    obtain ⟨hlt, hsecond⟩ := hends edge hedge
    rw [hlength] at hsecond
    simp [HeatEdge.link, hsecond, hlt.trans hsecond]
  refine ⟨state, walked.edges, substeps.toNat, hstate, ?_, ?_, ?_, ?_, ?_, hinitial, ?_⟩
  · rw [hconducting.temperatures, htemperatures]
    refine sum_relaxAll hdistinct hclosed fun link hlink _ => ?_
    obtain ⟨edge, hedge, rfl⟩ := hlinks link hlink
    rw [← hcapacities]
    refine balanced_link hready₁ hwalked (fun node hnode => ?_) hedge
    rw [hnodes] at hnode
    exact hvalid node hnode
  · intro lo hi hbounds temperature htemperature
    obtain ⟨i, hi', hget⟩ := List.mem_iff_getElem.1 htemperature
    have hinside : i < captured.nodes.length := by
      rw [← hlength, ← hconducting.length]
      exact hi'
    have hvalue : valueAt state.temperatures i = temperature :=
      valueAt_of_getElem? (by rw [List.getElem?_eq_getElem hi', hget])
    rw [← hvalue, hconducting.temperatures, htemperatures]
    refine relaxAll_mem hdistinct (fun link hlink => ?_) hclosed (fun j hj => ?_) i (by simpa using hinside)
    · obtain ⟨edge, hedge, rfl⟩ := hlinks link hlink
      exact gentle_link hwalked hscale hscaled hedge
    · have hj : j < captured.temperatures.length := by
        rw [hready.temperatures, List.length_map]
        simpa using hj
      rw [valueAt, List.getElem?_eq_getElem hj]
      exact hbounds _ (List.getElem_mem hj)
  · exact hwalked.nodup_edges hready₁ hwired.joined (occupancy_functional w₀)
  · intro i j
    rw [hwalked.mem_edges_iff hready₁ (by rwa [hnodes]), hlinked]
  · exact fun i j h => h.symm hwired.joined
  · intro hcomplete
    unfold stageHeatConductionComplete at hcomplete
    rw [hstate, Option.any_some] at hcomplete
    exact hfinished hcomplete

end Runs

/-! ## Two turfs -/

section Pair

/-- Captures keep the topology well formed. -/
theorem keeps_wired_prepareStageHeatTurf (turf : TurfHandle) (canContinue : Bool) :
    Keeps Wired (prepareStageHeatTurf (F := ℚ) turf canContinue) :=
  keeps_of_units (fun _ _ h hw => hw.of_keepsShapes (keepsShapes_of_unitStep h))
    fun origin tokens => keeps_prepareStageHeatTurf origin tokens turf canContinue

/-- Two turfs at 300 K and 400 K, joined by a heat edge. -/
def heatedPair : DogmosWorld ℚ :=
  System.run (step (D := ℚ)) (newWithCapacities 0 0 100000 8 4)
    [.applyTurfLifecycle [.register ⟨0, 1⟩ none, .register ⟨1, 1⟩ none],
      .applyTurfHeat [⟨⟨0, 1⟩, some ⟨300, 1 / 2, 100, false⟩⟩,
        ⟨⟨1, 1⟩, some ⟨400, 1 / 2, 200, false⟩⟩],
      .applyTurfHeatAdjacency [⟨⟨0, 1⟩, ⟨1, 1⟩, true⟩]]

/-- A heat stage that captured the two turfs. -/
def capturedPair : DogmosWorld ℚ :=
  (run (prepareStageHeatTurf ⟨0, 1⟩ false)
    { heatedPair with stageHeat := some (.new heatedPair.publications.fresh) }).2

theorem capturedPair_ready : Wired capturedPair ∧ capturedPair.HeatCaptured := by
  have hwired : Wired heatedPair :=
    wired_of_reachable (D := ℚ) (System.reachable_run ⟨0, 0, 100000, 8, 4, rfl⟩ _)
  constructor
  · exact keeps_wired_prepareStageHeatTurf _ _ _ ⟨hwired.agrees, hwired.joined⟩
  · refine keeps_heatCaptured_prepareStageHeatTurf _ _ _ fun state hstate => ?_
    cases hstate
    exact heatReady_new _

/-- The world after so many units. -/
def afterUnits {α : Type} (m : WorldM ℚ α) : Nat → DogmosWorld ℚ → DogmosWorld ℚ
  | 0, w => w
  | n + 1, w => afterUnits m n (run m w).2

/-- Whether so many units succeed. -/
def unitsSucceed {α : Type} (m : WorldM ℚ α) : Nat → DogmosWorld ℚ → Bool
  | 0, _ => true
  | n + 1, w => (run m w).1.toBool && unitsSucceed m n (run m w).2

theorem unitsOf_afterUnits {α : Type} {m : WorldM ℚ α} : ∀ {n : Nat} {w : DogmosWorld ℚ},
    unitsSucceed m n w = true → UnitsOf m w (afterUnits m n w)
  | 0, _, _ => .refl
  | _ + 1, _, h => by
    rw [unitsSucceed, Bool.and_eq_true] at h
    exact .head (exists_of_toBool h.1) (unitsOf_afterUnits h.2)

/-- The pair with its edge found and its substeps chosen. -/
def preparedPair : DogmosWorld ℚ :=
  (run (prepareStageHeatConduction (1 / 2 : ℚ)) (afterUnits (advanceStageHeatTopology (F := ℚ)) 4
    (afterUnits (computeNextHeatNode (D := ℚ) (1 / 2 : ℚ)) 2 capturedPair))).2

/-- The two turfs conduct along their edge, once. -/
theorem conduction_stable_capturedPair :
    ∃ (edge : HeatEdge ℚ) (w : DogmosWorld ℚ) (captured state : StageHeatState ℚ),
      ConductionRun preparedPair [edge] w ∧ w.stageHeatConductionComplete = true ∧
      capturedPair.stageHeat = some captured ∧ w.stageHeat = some state ∧
      ∑ i ∈ range captured.nodes.length,
          valueAt captured.heatCapacities i * valueAt state.temperatures i =
        ∑ i ∈ range captured.nodes.length,
          valueAt captured.heatCapacities i * valueAt captured.temperatures i := by
  obtain ⟨captured, hcaptured, hnodes⟩ := Option.map_eq_some_iff.1
    (show capturedPair.stageHeat.map (fun state => state.nodes.all fun node =>
      decide (node.mixture = none) && !node.heat.adjacentToSpace &&
        decide (0 < node.heat.heatCapacity) && decide (node.heat.heatCapacity < 10 ^ 30)) =
          some true by decide +kernel)
  have hvalid : ∀ node ∈ captured.nodes, Plain node ∧ 0 < node.heat.heatCapacity ∧
      node.heat.heatCapacity < 10 ^ 30 := by
    intro node hnode
    have h := List.all_eq_true.1 hnodes node hnode
    simp only [Bool.and_eq_true, decide_eq_true_eq, Bool.not_eq_true'] at h
    exact ⟨⟨h.1.1.1, h.1.1.2⟩, h.1.2, h.2⟩
  obtain ⟨edge, hedge⟩ := Option.isSome_iff_exists.1
    (show preparedPair.nextHeatEdge.isSome = true by decide +kernel)
  have hconduct : ∃ v, run (advanceStageHeatConduction (F := ℚ)) preparedPair = (.ok true, v) ∧
      v.stageHeatConductionComplete = true := by
    refine ⟨(run (advanceStageHeatConduction (F := ℚ)) preparedPair).2, ?_, by decide +kernel⟩
    have hworked : (run (advanceStageHeatConduction (F := ℚ)) preparedPair).1.toOption = some true := by
      decide +kernel
    rcases hrun : run (advanceStageHeatConduction (F := ℚ)) preparedPair with ⟨error | worked, v⟩
    · rw [hrun] at hworked
      cases hworked
    · rw [hrun] at hworked
      cases hworked
      rfl
  obtain ⟨w, hrun, hcomplete⟩ := hconduct
  have hconduction : ConductionRun preparedPair [edge] w := .next .start hedge hrun
  obtain ⟨_, hprepare⟩ := exists_of_toBool (m := prepareStageHeatConduction (1 / 2 : ℚ))
    (w := afterUnits (advanceStageHeatTopology (F := ℚ)) 4
      (afterUnits (computeNextHeatNode (D := ℚ) (1 / 2 : ℚ)) 2 capturedPair)) (by decide +kernel)
  obtain ⟨state, -, -, hstate, henergy, -⟩ := conduction_stable capturedPair_ready.1 hcaptured
    (capturedPair_ready.2 captured hcaptured) (fun node hnode => (hvalid node hnode).1)
    (fun node hnode => (hvalid node hnode).2) (by norm_num)
    (unitsOf_afterUnits (m := computeNextHeatNode (D := ℚ) (1 / 2 : ℚ)) (n := 2) (by decide +kernel))
    (unitsOf_afterUnits (m := advanceStageHeatTopology (F := ℚ)) (n := 4) (by decide +kernel))
    (by decide +kernel) hprepare hconduction
  exact ⟨edge, w, captured, state, hconduction, hcomplete, hcaptured, hstate, henergy⟩

end Pair

end Dogmos
