import Dogmos.Exact.Conductance
import Dogmos.Numerics.Conduction
import Dogmos.Lib.Bytes

/-!
# The reference conduction step, exactly

`conduction_step` sorts its edges before it uses them, so that neither their order nor their
orientation matters (`SameEdges.canonical`).  Each substep relaxes the temperatures along the
sorted edges, and no share is more than one, because the scale divides the largest row sum
(`Conducts.gentle`).

* `conductionStep_conducts` — an accepted step relaxes the temperatures along links that are edges.
* `conductionStep_exact` — an accepted step is the same for every order and orientation of the
  edges, leaves nodes of infinite capacity and nodes without edges alone, keeps the energy of a
  component of finite capacity and stays within the temperatures of each component.
-/

namespace Dogmos

open Exec Relaxation Bytes

/-! ## Edges -/

/-- The edges in another order and some of them the other way round. -/
def SameEdges (edges edges' : List (UInt32 × UInt32)) : Prop :=
  ∃ turned, List.Forall₂ (fun edge edge' => edge' = edge ∨ edge' = edge.swap) edges turned ∧
    turned.Perm edges'

/-- Two nodes that edges connect. -/
def Linked (edges : List (UInt32 × UInt32)) : Nat → Nat → Prop :=
  Relation.EqvGen fun i j => ∃ edge ∈ edges, edge.1.toNat = i ∧ edge.2.toNat = j

/-- An edge between two different nodes of so many. -/
def Fits (nodeCount : Nat) (edge : UInt32 × UInt32) : Prop :=
  edge.1.toNat < nodeCount ∧ edge.2.toNat < nodeCount ∧ edge.1 ≠ edge.2

section Edges

variable {edges edges' sorted : List (UInt32 × UInt32)} {edge : UInt32 × UInt32} {nodeCount : Nat}

theorem undirected_swap (edge : UInt32 × UInt32) : undirected edge.swap = undirected edge := by
  obtain ⟨first, second⟩ := edge
  unfold undirected
  simp only [Prod.swap_prod_mk, UInt32.lt_iff_toNat_lt]
  by_cases hlt : first.toNat < second.toNat
  · rw [if_pos hlt, if_neg (by omega)]
  · by_cases hgt : second.toNat < first.toNat
    · rw [if_neg hlt, if_pos hgt]
    · obtain rfl : first = second := UInt32.toNat_inj.1 (by omega)
      rfl

theorem undirected_eq (edge : UInt32 × UInt32) :
    undirected edge = edge ∨ undirected edge = edge.swap := by
  unfold undirected
  split
  · exact .inl rfl
  · exact .inr rfl

theorem Fits.swap (h : Fits nodeCount edge) : Fits nodeCount edge.swap :=
  ⟨h.2.1, h.1, h.2.2.symm⟩

theorem Fits.undirected (h : Fits nodeCount edge) : Fits nodeCount (undirected edge) := by
  rcases undirected_eq edge with heq | heq <;> rw [heq]
  · exact h
  · exact h.swap

theorem edgeLe_iff {a b : UInt32 × UInt32} : edgeLe a b = true ↔
    a.1.toNat < b.1.toNat ∨ a.1.toNat = b.1.toNat ∧ a.2.toNat ≤ b.2.toNat := by
  unfold edgeLe
  simp [UInt32.lt_iff_toNat_lt, UInt32.le_iff_toNat_le, UInt32.toNat_inj]

theorem insertionSort_edgeLe (h : edges.Perm edges') :
    edges.insertionSort (fun a b => edgeLe a b) = edges'.insertionSort fun a b => edgeLe a b := by
  have htotal : Std.Total fun a b : UInt32 × UInt32 => edgeLe a b = true := by
    refine ⟨fun a b => ?_⟩
    rw [edgeLe_iff, edgeLe_iff]
    omega
  have htrans : IsTrans (UInt32 × UInt32) fun a b => edgeLe a b = true := by
    refine ⟨fun a b c => ?_⟩
    rw [edgeLe_iff, edgeLe_iff, edgeLe_iff]
    omega
  refine List.Perm.eq_of_pairwise (fun a b _ _ (hab : edgeLe a b = true) (hba : edgeLe b a = true) => ?_)
    (List.pairwise_insertionSort _ edges) (List.pairwise_insertionSort _ edges')
    ((List.perm_insertionSort _ edges).trans (h.trans (List.perm_insertionSort _ edges').symm))
  rw [edgeLe_iff] at hab hba
  exact Prod.ext (UInt32.toNat_inj.1 (by omega)) (UInt32.toNat_inj.1 (by omega))

theorem canonicalEdge_eq_ok {found : UInt32 × UInt32} :
    canonicalEdge nodeCount edge = .ok found ↔ Fits nodeCount edge ∧ found = undirected edge := by
  unfold canonicalEdge Fits
  by_cases hfirst : nodeCount ≤ edge.1.toNat
  · rw [if_pos hfirst]
    exact iff_of_false (fun h => by cases h) fun h => absurd h.1.1 (by omega)
  by_cases hsecond : nodeCount ≤ edge.2.toNat
  · rw [if_neg hfirst, if_pos hsecond]
    exact iff_of_false (fun h => by cases h) fun h => absurd h.1.2.1 (by omega)
  by_cases hself : edge.1 = edge.2
  · rw [if_neg hfirst, if_neg hsecond, if_pos hself]
    exact iff_of_false (fun h => by cases h) fun h => h.1.2.2 hself
  rw [if_neg hfirst, if_neg hsecond, if_neg hself, pure_eq, Except.ok.injEq]
  refine ⟨fun h => ⟨⟨?_, ?_, hself⟩, h.symm⟩, fun h => h.2.symm⟩
  · omega
  · omega

theorem mapM_canonicalEdge : edges.mapM (canonicalEdge nodeCount) = .ok sorted ↔
    (∀ edge ∈ edges, Fits nodeCount edge) ∧ sorted = edges.map undirected := by
  induction edges generalizing sorted with
  | nil => simp [eq_comm]
  | cons edge rest ih =>
    rw [List.mapM_cons]
    simp only [bind_eq_ok, canonicalEdge_eq_ok, ih, pure_eq, Except.ok.injEq, List.forall_mem_cons,
      List.map_cons]
    constructor
    · rintro ⟨_, ⟨hfits, rfl⟩, _, ⟨hrest, rfl⟩, rfl⟩
      exact ⟨⟨hfits, hrest⟩, rfl⟩
    · rintro ⟨⟨hfits, hrest⟩, rfl⟩
      exact ⟨_, ⟨hfits, rfl⟩, _, ⟨hrest, rfl⟩, rfl⟩

theorem canonicalEdges_eq_ok : canonicalEdges edges nodeCount = .ok sorted ↔
    (∀ edge ∈ edges, Fits nodeCount edge) ∧
    sorted = (edges.map undirected).insertionSort (fun a b => edgeLe a b) ∧
    firstRepeated id sorted = none := by
  unfold canonicalEdges
  simp only [bind_eq_ok, mapM_canonicalEdge]
  constructor
  · rintro ⟨_, ⟨hfits, rfl⟩, hfound⟩
    split at hfound
    · cases hfound
    · next hnone =>
      cases hfound
      exact ⟨hfits, rfl, hnone⟩
  · rintro ⟨hfits, rfl, hnone⟩
    refine ⟨_, ⟨hfits, rfl⟩, ?_⟩
    rw [hnone]
    rfl

/-- The canonical order forgets order and orientation. -/
theorem SameEdges.canonical (h : SameEdges edges edges')
    (hcanonical : canonicalEdges edges nodeCount = .ok sorted) :
    canonicalEdges edges' nodeCount = .ok sorted := by
  obtain ⟨turned, hturned, hperm⟩ := h
  rw [canonicalEdges_eq_ok] at hcanonical ⊢
  obtain ⟨hfits, hsorted, hnone⟩ := hcanonical
  have hsame : (∀ edge ∈ turned, Fits nodeCount edge) ∧
      turned.map undirected = edges.map undirected := by
    clear hsorted hperm
    induction hturned with
    | nil => exact ⟨by simp, rfl⟩
    | cons hedge _ ih =>
      rw [List.forall_mem_cons] at hfits
      obtain ⟨hrest, hmap⟩ := ih hfits.2
      rw [List.forall_mem_cons, List.map_cons, List.map_cons, hmap]
      rcases hedge with rfl | rfl
      · exact ⟨⟨hfits.1, hrest⟩, rfl⟩
      · exact ⟨⟨hfits.1.swap, hrest⟩, by rw [undirected_swap]⟩
  refine ⟨fun edge hedge => hsame.1 edge (hperm.mem_iff.2 hedge), ?_, hnone⟩
  rw [hsorted, ← hsame.2]
  exact insertionSort_edgeLe (hperm.map _)

/-- Every canonical edge is one of the edges or one of them the other way round. -/
theorem mem_canonicalEdges (h : canonicalEdges edges nodeCount = .ok sorted)
    (hedge : edge ∈ sorted) : Fits nodeCount edge ∧ (edge ∈ edges ∨ edge.swap ∈ edges) := by
  obtain ⟨hfits, rfl, -⟩ := canonicalEdges_eq_ok.1 h
  rw [List.mem_insertionSort, List.mem_map] at hedge
  obtain ⟨original, horiginal, rfl⟩ := hedge
  refine ⟨(hfits original horiginal).undirected, ?_⟩
  rcases undirected_eq original with heq | heq <;> rw [heq]
  · exact .inl horiginal
  · exact .inr (by rwa [Prod.swap_swap])

end Edges

/-! ## Weights -/

section Weights

variable {conductivities heatCapacities sums : List ℚ} {edges : List (UInt32 × UInt32)}
  {edge : UInt32 × UInt32}

theorem entry_eq (values : List ℚ) (index : UInt32) : entry values index = valueAt values index.toNat :=
  valueAt_eq values index.toNat

/-- The weight of the first of two nodes. -/
def pairWeight (conductivities heatCapacities : List ℚ) (first second : UInt32) : ℚ :=
  rowWeight (valueAt conductivities first.toNat) (valueAt conductivities second.toNat)
    (valueAt heatCapacities first.toNat) (valueAt heatCapacities second.toNat)

/-- The values at both ends of an edge are valid. -/
def Weighed (conductivities heatCapacities : List ℚ) (edge : UInt32 × UInt32) : Prop :=
  (0 ≤ valueAt conductivities edge.1.toNat ∧ 0 ≤ valueAt conductivities edge.2.toNat) ∧
    0 < valueAt heatCapacities edge.1.toNat ∧ 0 < valueAt heatCapacities edge.2.toNat

theorem conductionRowWeight_eq_ok {k l a b weight : ℚ} :
    conductionRowWeight k l a b = .ok weight ↔
      0 ≤ k ∧ 0 ≤ l ∧ 0 < a ∧ 0 < b ∧ weight = rowWeight k l a b := by
  rw [← heatRowWeight_eq_ok, heatRowWeight_eq]
  rcases conductionRowWeight k l a b with error | found
  · exact iff_of_false (fun h => by cases h) fun h => by cases h
  · exact ⟨fun h => by cases h; rfl, fun h => by cases h; rfl⟩

theorem endWeights_eq_ok {weights : ℚ × ℚ} :
    endWeights conductivities heatCapacities edge = .ok weights ↔
      Weighed conductivities heatCapacities edge ∧
      weights = (pairWeight conductivities heatCapacities edge.1 edge.2,
        pairWeight conductivities heatCapacities edge.2 edge.1) := by
  unfold endWeights Weighed pairWeight
  simp only [bind_eq_ok, entry_eq, conductionRowWeight_eq_ok, pure_eq, Except.ok.injEq]
  constructor
  · rintro ⟨_, ⟨hk, hl, ha, hb, rfl⟩, _, ⟨-, -, -, -, rfl⟩, rfl⟩
    exact ⟨⟨⟨hk, hl⟩, ha, hb⟩, rfl⟩
  · rintro ⟨⟨⟨hk, hl⟩, ha, hb⟩, rfl⟩
    exact ⟨_, ⟨hk, hl, ha, hb, rfl⟩, _, ⟨hl, hk, hb, ha, rfl⟩, rfl⟩

theorem pairWeight_nonneg (h : Weighed conductivities heatCapacities edge) :
    0 ≤ pairWeight conductivities heatCapacities edge.1 edge.2 ∧
      0 ≤ pairWeight conductivities heatCapacities edge.2 edge.1 :=
  ⟨rowWeight_nonneg h.1.1 h.1.2 h.2.1 h.2.2, rowWeight_nonneg h.1.2 h.1.1 h.2.2 h.2.1⟩

/-- The row sums with one more edge. -/
theorem valueAt_addRowWeights (hfits : Fits sums.length edge) (weights : ℚ × ℚ) :
    (addRowWeights sums edge weights).length = sums.length ∧
      ∀ i, valueAt (addRowWeights sums edge weights) i = valueAt sums i +
        (if i = edge.1.toNat then weights.1 else 0) + if i = edge.2.toNat then weights.2 else 0 := by
  unfold addRowWeights
  simp only [entry_eq, List.length_set, true_and]
  exact valueAt_added hfits.1 hfits.2.1 weights.1 weights.2

/-- No row sum is less than the weight of an edge of its node. -/
theorem covered_of_foldlM {start : List ℚ} (hfits : ∀ edge ∈ edges, Fits start.length edge)
    (hstart : ∀ i, 0 ≤ valueAt start i)
    (h : edges.foldlM (fun rowSums edge => do
      let weights ← endWeights conductivities heatCapacities edge
      pure (addRowWeights rowSums edge weights)) start = .ok sums) :
    (∀ i, valueAt start i ≤ valueAt sums i) ∧ ∀ edge ∈ edges,
      Weighed conductivities heatCapacities edge ∧
      pairWeight conductivities heatCapacities edge.1 edge.2 ≤ valueAt sums edge.1.toNat ∧
      pairWeight conductivities heatCapacities edge.2 edge.1 ≤ valueAt sums edge.2.toNat := by
  induction edges generalizing start with
  | nil =>
    cases h
    exact ⟨fun _ => le_rfl, by simp⟩
  | cons edge rest ih =>
    rw [List.forall_mem_cons] at hfits
    rw [List.foldlM_cons] at h
    simp only [bind_eq_ok, endWeights_eq_ok, pure_eq, Except.ok.injEq] at h
    obtain ⟨_, ⟨_, ⟨hweighed, rfl⟩, rfl⟩, hrest⟩ := h
    obtain ⟨hfirst, hsecond⟩ := pairWeight_nonneg hweighed
    obtain ⟨hlength, hadded⟩ := valueAt_addRowWeights hfits.1
      (pairWeight conductivities heatCapacities edge.1 edge.2,
        pairWeight conductivities heatCapacities edge.2 edge.1)
    have hparts : ∀ i : Nat,
        0 ≤ (if i = edge.1.toNat then pairWeight conductivities heatCapacities edge.1 edge.2 else 0) ∧
        0 ≤ if i = edge.2.toNat then pairWeight conductivities heatCapacities edge.2 edge.1 else 0 := by
      intro i
      constructor <;> split <;> first | assumption | exact le_rfl
    obtain ⟨hgrows, hcovered⟩ := ih (by rw [hlength]; exact hfits.2)
      (fun i => by rw [hadded]; linarith [hstart i, (hparts i).1, (hparts i).2]) hrest
    refine ⟨fun i => ?_, List.forall_mem_cons.2 ⟨⟨hweighed, ?_, ?_⟩, hcovered⟩⟩
    · have hmid := hgrows i
      rw [hadded] at hmid
      linarith [(hparts i).1, (hparts i).2]
    · have hmid := hgrows edge.1.toNat
      rw [hadded, if_pos rfl] at hmid
      linarith [hstart edge.1.toNat, (hparts edge.1.toNat).2]
    · have hmid := hgrows edge.2.toNat
      rw [hadded, if_pos (rfl : edge.2.toNat = _)] at hmid
      linarith [hstart edge.2.toNat, (hparts edge.2.toNat).1]

theorem foldl_fmax (values : List ℚ) (start : ℚ) :
    start ≤ values.foldl FloatFormat.fmax start ∧
      ∀ value ∈ values, value ≤ values.foldl FloatFormat.fmax start := by
  induction values generalizing start with
  | nil => exact ⟨le_rfl, by simp⟩
  | cons value rest ih =>
    obtain ⟨hstart, hrest⟩ := ih (FloatFormat.fmax start value)
    rw [Exact.fmax_eq] at hstart hrest
    rw [List.foldl_cons, Exact.fmax_eq]
    refine ⟨(le_max_left ..).trans hstart, List.forall_mem_cons.2 ⟨?_, hrest⟩⟩
    exact (le_max_right ..).trans hstart

/-- The number of substeps brings every row sum of an edge down to one. -/
theorem requiredSubsteps_scaled {seconds : ℚ} {substeps : UInt32}
    (hfits : ∀ edge ∈ edges, Fits conductivities.length edge) (hseconds : 0 ≤ seconds)
    (h : requiredSubstepsFromEdges conductivities heatCapacities edges seconds = .ok substeps) :
    ∀ edge ∈ edges, Weighed conductivities heatCapacities edge ∧
      pairWeight conductivities heatCapacities edge.1 edge.2 *
        (seconds / baseHeatStepSeconds / FloatFormat.ofNat substeps.toNat) ≤ 1 ∧
      pairWeight conductivities heatCapacities edge.2 edge.1 *
        (seconds / baseHeatStepSeconds / FloatFormat.ofNat substeps.toNat) ≤ 1 := by
  unfold requiredSubstepsFromEdges at h
  rw [bind_eq_ok] at h
  obtain ⟨sums, hsums, h⟩ := h
  have hzero : ∀ i, 0 ≤ valueAt (List.replicate conductivities.length (0.0 : ℚ)) i := by
    intro i
    unfold valueAt
    rw [List.getElem?_replicate, exact_zero]
    split <;> exact le_rfl
  unfold rowWeights at hsums
  obtain ⟨-, hcovered⟩ := covered_of_foldlM
    (by simpa only [List.length_replicate] using hfits) hzero hsums
  obtain ⟨hmaximum, hsum⟩ := foldl_fmax sums 0.0
  rw [exact_zero] at hmaximum hsum h
  -- the largest row sum is at least every row sum, and those out of range are zero
  have hle : ∀ i, valueAt sums i ≤ sums.foldl FloatFormat.fmax 0 := by
    intro i
    unfold valueAt
    rcases hvalue : sums[i]? with _ | value
    · exact hmaximum
    · exact hsum value (List.mem_of_getElem? hvalue)
  generalize sums.foldl FloatFormat.fmax 0 = maximum at h hle
  have helapsed : 0 ≤ seconds / (baseHeatStepSeconds : ℚ) := by
    rw [exact_baseHeatStepSeconds]
    positivity
  generalize seconds / (baseHeatStepSeconds : ℚ) = elapsed at h helapsed ⊢
  simp only [Exact.isFinite_eq, Bool.not_true, Bool.false_or, Exact.ofNat_eq,
    maxConductionSubsteps] at h
  split at h
  · cases h
  · next hfew =>
    cases h
    have hsmall := not_lt.1 (of_decide_eq_false (Bool.eq_false_of_not_eq_true hfew))
    obtain ⟨hone, hscaled⟩ := toU32_ceil (by exact_mod_cast hsmall)
    intro edge hedge
    obtain ⟨hweighed, hfirst, hsecond⟩ := hcovered edge hedge
    have hshare : ∀ weight, weight ≤ maximum → weight * (elapsed / FloatFormat.ofNat
        (max (FloatFormat.toU32 (FloatFormat.ceil (maximum * elapsed))) 1).toNat) ≤ 1 := by
      intro weight hweight
      rw [Exact.ofNat_eq, ← mul_div_assoc]
      refine div_le_one_of_le₀ ?_ (Nat.cast_nonneg _)
      exact (mul_le_mul_of_nonneg_right hweight helapsed).trans hscaled
    exact ⟨hweighed, hshare _ (hfirst.trans (hle _)), hshare _ (hsecond.trans (hle _))⟩

end Weights

/-! ## Running -/

section Running

variable {conductivities heatCapacities temperatures temperatures' : List ℚ}
  {edges : List (UInt32 × UInt32)} {edge : UInt32 × UInt32} {scale seconds : ℚ}

/-- An edge as a link, with the shares of one substep. -/
def conductionLink (conductivities heatCapacities : List ℚ) (scale : ℚ) (edge : UInt32 × UInt32) :
    Link Nat ℚ where
  first := edge.1.toNat
  second := edge.2.toNat
  firstShare := pairWeight conductivities heatCapacities edge.1 edge.2 * scale
  secondShare := pairWeight conductivities heatCapacities edge.2 edge.1 * scale

theorem valueAt_conductPair (hfits : Fits temperatures.length edge) {weights : ℚ × ℚ} :
    (conductPair temperatures edge weights).length = temperatures.length ∧
      valueAt (conductPair temperatures edge weights) =
        Link.relax ⟨edge.1.toNat, edge.2.toNat, weights.1, weights.2⟩ (valueAt temperatures) := by
  unfold conductPair
  simp only [entry_eq, List.length_set, true_and]
  rw [valueAt_set (by rw [List.length_set]; exact hfits.2.1), valueAt_set hfits.1]
  rfl

theorem run_applyConductionEdge (hfits : Fits temperatures.length edge)
    (h : run (applyConductionEdge conductivities heatCapacities scale edge) temperatures =
      (.ok ⟨⟩, temperatures')) :
    temperatures'.length = temperatures.length ∧ valueAt temperatures' =
      (conductionLink conductivities heatCapacities scale edge).relax (valueAt temperatures) := by
  unfold applyConductionEdge at h
  rw [run_bind, run_check] at h
  rcases hweights : endWeights conductivities heatCapacities edge with error | weights
  · rw [hweights] at h
    cases h
  · rw [hweights] at h
    cases h
    obtain ⟨-, rfl⟩ := endWeights_eq_ok.1 hweights
    exact valueAt_conductPair hfits

/-- A substep relaxes the temperatures along the edges, in order. -/
theorem run_applyConductionSubstep (hfits : ∀ edge ∈ edges, Fits temperatures.length edge)
    (h : run (applyConductionSubstep conductivities heatCapacities edges scale) temperatures =
      (.ok ⟨⟩, temperatures')) :
    temperatures'.length = temperatures.length ∧ valueAt temperatures' =
      relaxAll (edges.map (conductionLink conductivities heatCapacities scale))
        (valueAt temperatures) := by
  unfold applyConductionSubstep at h
  induction edges generalizing temperatures with
  | nil =>
    cases h
    exact ⟨rfl, rfl⟩
  | cons edge rest ih =>
    rw [List.forall_mem_cons] at hfits
    rw [run_forM_cons, run_bind] at h
    rcases hedge : run (applyConductionEdge conductivities heatCapacities scale edge) temperatures
      with ⟨error | _, left⟩
    · rw [hedge] at h
      cases h
    · rw [hedge] at h
      obtain ⟨hlength, hvalues⟩ := run_applyConductionEdge hfits.1 hedge
      obtain ⟨hlength', hvalues'⟩ := ih (by rw [hlength]; exact hfits.2) h
      refine ⟨hlength'.trans hlength, ?_⟩
      rw [hvalues', hvalues, List.map_cons, relaxAll_cons]

/-- The loop relaxes the temperatures along the links of a substep, so many times. -/
theorem run_conductionSubsteps {substep : ConductionM ℚ Unit} {links : List (Link Nat ℚ)}
    {shouldCancel : Nat → Bool}
    (hsubstep : ∀ before after, before.length = temperatures.length →
      run substep before = (.ok ⟨⟩, after) →
        after.length = before.length ∧ valueAt after = relaxAll links (valueAt before))
    {remaining checks : Nat} {before : List ℚ} (hbefore : before.length = temperatures.length)
    (h : run (conductionSubsteps substep shouldCancel remaining checks) before =
      (.ok ⟨⟩, temperatures')) :
    temperatures'.length = before.length ∧
      valueAt temperatures' = relaxAll (List.replicate remaining links).flatten (valueAt before) := by
  induction remaining generalizing checks before with
  | zero =>
    cases h
    exact ⟨rfl, rfl⟩
  | succ remaining ih =>
    rw [conductionSubsteps] at h
    by_cases hcancel : shouldCancel checks = true
    · rw [if_pos hcancel] at h
      cases h
    · rw [if_neg hcancel] at h
      dsimp only at h
      rw [run_bind] at h
      rcases hrun : run substep before with ⟨error | _, after⟩
      · rw [hrun] at h
        cases h
      · rw [hrun] at h
        obtain ⟨hlength, hvalues⟩ := hsubstep before after hbefore hrun
        obtain ⟨hlength', hvalues'⟩ := ih (hlength.trans hbefore) h
        refine ⟨hlength'.trans hlength, ?_⟩
        rw [hvalues', hvalues, List.replicate_succ, List.flatten_cons, relaxAll_append]

/-- A link that is an edge, with shares as the substeps give them. -/
structure Conducts (heatCapacities : List ℚ) (edges : List (UInt32 × UInt32)) (link : Link Nat ℚ) :
    Prop where
  edge : ∃ edge ∈ edges, edge.1.toNat = link.first ∧ edge.2.toNat = link.second ∨
    edge.1.toNat = link.second ∧ edge.2.toNat = link.first
  distinct : link.first ≠ link.second
  gentle : link.Gentle
  balanced : valueAt heatCapacities link.first < 10 ^ 30 →
    valueAt heatCapacities link.second < 10 ^ 30 → link.Balanced (valueAt heatCapacities)
  firstFrozen : 10 ^ 30 ≤ valueAt heatCapacities link.first → link.firstShare = 0
  secondFrozen : 10 ^ 30 ≤ valueAt heatCapacities link.second → link.secondShare = 0

theorem Conducts.linked {link : Link Nat ℚ} (h : Conducts heatCapacities edges link) :
    Linked edges link.first link.second := by
  obtain ⟨edge, hedge, ⟨hfirst, hsecond⟩ | ⟨hfirst, hsecond⟩⟩ := h.edge
  · exact .rel _ _ ⟨edge, hedge, hfirst, hsecond⟩
  · exact .symm _ _ (.rel _ _ ⟨edge, hedge, hfirst, hsecond⟩)

theorem conducts_conductionLink (hfits : Fits temperatures.length edge)
    (hedge : edge ∈ edges ∨ edge.swap ∈ edges) (hweighed : Weighed conductivities heatCapacities edge)
    (hscale : 0 ≤ scale)
    (hfirst : pairWeight conductivities heatCapacities edge.1 edge.2 * scale ≤ 1)
    (hsecond : pairWeight conductivities heatCapacities edge.2 edge.1 * scale ≤ 1) :
    Conducts heatCapacities edges (conductionLink conductivities heatCapacities scale edge) := by
  obtain ⟨hpos, hpos'⟩ := pairWeight_nonneg hweighed
  refine ⟨?_, fun heq => hfits.2.2 (UInt32.toNat_inj.1 heq), ⟨⟨?_, hfirst⟩, ⟨?_, hsecond⟩⟩, ?_, ?_, ?_⟩
  · rcases hedge with hedge | hedge
    · exact ⟨edge, hedge, .inl ⟨rfl, rfl⟩⟩
    · exact ⟨edge.swap, hedge, .inr ⟨rfl, rfl⟩⟩
  · exact mul_nonneg hpos hscale
  · exact mul_nonneg hpos' hscale
  · intro hfinite hfinite'
    unfold Link.Balanced conductionLink pairWeight
    dsimp only
    rw [← mul_assoc, ← mul_assoc]
    exact congrArg (· * scale) (rowWeight_balanced hweighed.2.1 hweighed.2.2 hfinite hfinite')
  · exact fun hinfinite => mul_eq_zero_of_left (rowWeight_of_infinite hinfinite) scale
  · exact fun hinfinite => mul_eq_zero_of_left (rowWeight_of_infinite hinfinite) scale

theorem validateValues_eq_ok {after : Unit}
    (h : validateValues temperatures conductivities heatCapacities seconds = .ok after) :
    conductivities.length = temperatures.length ∧ 0 ≤ seconds := by
  unfold validateValues at h
  dsimp only at h
  by_cases hlengths : temperatures.length ≠ conductivities.length ∨
      temperatures.length ≠ heatCapacities.length
  · rw [if_pos hlengths] at h
    cases h
  rw [if_neg hlengths] at h
  by_cases hseconds : (!FloatFormat.isFinite seconds || decide (seconds < 0.0)) = true
  · rw [if_pos hseconds] at h
    cases h
  rw [not_or, not_not] at hlengths
  rw [Exact.isFinite_eq, Bool.not_true, Bool.false_or, decide_eq_true_eq, exact_zero] at hseconds
  exact ⟨hlengths.1.symm, not_lt.1 hseconds⟩

/-- **An accepted step** relaxes the temperatures along links that are edges. -/
theorem conductionStep_conducts {shouldCancel : Nat → Bool} {stats : ConductionStats}
    (h : run (conductionStepCancellable conductivities heatCapacities edges seconds shouldCancel)
      temperatures = (.ok stats, temperatures')) :
    temperatures'.length = temperatures.length ∧ ∃ links : List (Link Nat ℚ),
      (∀ link ∈ links, Conducts heatCapacities edges link) ∧
      valueAt temperatures' = relaxAll links (valueAt temperatures) := by
  unfold conductionStepCancellable at h
  rw [run_bind, run_check] at h
  rcases hvalid : validateValues temperatures conductivities heatCapacities seconds with error | valid
  · rw [hvalid] at h
    cases h
  rw [hvalid] at h
  dsimp only at h
  obtain ⟨hlength, hseconds⟩ := validateValues_eq_ok hvalid
  rw [run_bind, run_check] at h
  rcases hcanonical : canonicalEdges edges temperatures.length with error | sorted
  · rw [hcanonical] at h
    cases h
  rw [hcanonical] at h
  dsimp only at h
  rw [run_bind, run_check] at h
  rcases hsubsteps : requiredSubstepsFromEdges conductivities heatCapacities sorted seconds
    with error | substeps
  · rw [hsubsteps] at h
    cases h
  rw [hsubsteps] at h
  dsimp only at h
  have hfits : ∀ edge ∈ sorted, Fits temperatures.length edge :=
    fun edge hedge => (mem_canonicalEdges hcanonical hedge).1
  have hscaled := requiredSubsteps_scaled (by rwa [hlength]) hseconds hsubsteps
  have hscale : 0 ≤ seconds / baseHeatStepSeconds / (FloatFormat.ofNat substeps.toNat : ℚ) := by
    rw [exact_baseHeatStepSeconds, Exact.ofNat_eq]
    positivity
  generalize seconds / baseHeatStepSeconds / (FloatFormat.ofNat substeps.toNat : ℚ) = scale
    at h hscaled hscale
  rw [run_bind] at h
  rcases hloop : run (conductionSubsteps (applyConductionSubstep conductivities heatCapacities sorted
    scale) shouldCancel substeps.toNat 0) temperatures with ⟨error | _, after⟩
  · rw [hloop] at h
    cases h
  rw [hloop] at h
  cases h
  obtain ⟨hafter, hvalues⟩ := run_conductionSubsteps
    (fun before after hbefore hrun => run_applyConductionSubstep (by rwa [hbefore]) hrun) rfl hloop
  refine ⟨hafter, _, fun link hlink => ?_, hvalues⟩
  rw [List.mem_flatten] at hlink
  obtain ⟨links, hlinks, hlink⟩ := hlink
  obtain rfl := List.eq_of_mem_replicate hlinks
  obtain ⟨edge, hedge, rfl⟩ := List.mem_map.1 hlink
  obtain ⟨hweighed, hfirst, hsecond⟩ := hscaled edge hedge
  exact conducts_conductionLink (hfits edge hedge) (mem_canonicalEdges hcanonical hedge).2 hweighed
    hscale hfirst hsecond

end Running

/-! ## The step -/

section Step

variable {conductivities heatCapacities temperatures temperatures' : List ℚ}
  {edges : List (UInt32 × UInt32)} {seconds : ℚ} {stats : ConductionStats}

theorem SameEdges.run_conductionStep {edges' : List (UInt32 × UInt32)} (hsame : SameEdges edges edges')
    (h : run (conductionStep conductivities heatCapacities edges seconds) temperatures =
      (.ok stats, temperatures')) :
    run (conductionStep conductivities heatCapacities edges' seconds) temperatures =
      (.ok stats, temperatures') := by
  rw [← h]
  unfold conductionStep conductionStepCancellable at h ⊢
  rw [run_bind, run_check] at h ⊢
  rw [run_bind (check _), run_check]
  rcases hvalid : validateValues temperatures conductivities heatCapacities seconds with error | valid
  · rfl
  rw [hvalid] at h
  dsimp only at h ⊢
  rw [run_bind, run_check] at h ⊢
  rw [run_bind (check _), run_check]
  rcases hcanonical : canonicalEdges edges temperatures.length with error | sorted
  · rw [hcanonical] at h
    cases h
  · rw [hsame.canonical hcanonical]

/-- **The reference step, exactly**: its result does not depend on how the edges are listed, and it
moves heat only within components, without losing energy and without leaving their temperatures. -/
theorem conductionStep_exact
    (h : run (conductionStep conductivities heatCapacities edges seconds) temperatures =
      (.ok stats, temperatures')) :
    (∀ edges', SameEdges edges edges' →
      run (conductionStep conductivities heatCapacities edges' seconds) temperatures =
        (.ok stats, temperatures')) ∧
    temperatures'.length = temperatures.length ∧
    (∀ i, 10 ^ 30 ≤ valueAt heatCapacities i → valueAt temperatures' i = valueAt temperatures i) ∧
    (∀ i, (∀ edge ∈ edges, edge.1.toNat ≠ i ∧ edge.2.toNat ≠ i) →
      valueAt temperatures' i = valueAt temperatures i) ∧
    (∀ (i : Nat) (component : Finset Nat), (∀ j, j ∈ component ↔ Linked edges i j) →
      (∀ j ∈ component, valueAt heatCapacities j < 10 ^ 30) →
      ∑ j ∈ component, valueAt heatCapacities j * valueAt temperatures' j =
        ∑ j ∈ component, valueAt heatCapacities j * valueAt temperatures j) ∧
    ∀ i lo hi, (∀ j, Linked edges i j → valueAt temperatures j ∈ Set.Icc lo hi) →
      valueAt temperatures' i ∈ Set.Icc lo hi := by
  obtain ⟨hlength, links, hlinks, hvalues⟩ := conductionStep_conducts h
  have hdistinct := fun link hlink => (hlinks link hlink).distinct
  have hclosed : ∀ i, Closed links {j | Linked edges i j} :=
    closed_class (Relation.EqvGen.is_equivalence _) fun link hlink => (hlinks link hlink).linked
  refine ⟨fun edges' hsame => hsame.run_conductionStep h, hlength, fun i hinfinite => ?_,
    fun i hisolated => ?_, fun i component hcomponent hfinite => ?_, fun i lo hi hbounds => ?_⟩
  · rw [hvalues]
    refine relaxAll_frozen hdistinct (fun link hlink hi => ?_) fun link hlink hi => ?_
    · exact (hlinks link hlink).firstFrozen (hi ▸ hinfinite)
    · exact (hlinks link hlink).secondFrozen (hi ▸ hinfinite)
  · -- no link touches a node without edges
    have hends : ∀ link ∈ links, link.first ≠ i ∧ link.second ≠ i := by
      intro link hlink
      obtain ⟨edge, hedge, ⟨hfirst, hsecond⟩ | ⟨hfirst, hsecond⟩⟩ := (hlinks link hlink).edge
      · exact ⟨hfirst ▸ (hisolated edge hedge).1, hsecond ▸ (hisolated edge hedge).2⟩
      · exact ⟨hsecond ▸ (hisolated edge hedge).2, hfirst ▸ (hisolated edge hedge).1⟩
    rw [hvalues]
    exact relaxAll_frozen hdistinct (fun link hlink hi => absurd hi (hends link hlink).1)
      fun link hlink hi => absurd hi (hends link hlink).2
  · have hset : (component : Set Nat) = {j | Linked edges i j} := Set.ext hcomponent
    rw [hvalues]
    refine sum_relaxAll hdistinct (hset ▸ hclosed i) fun link hlink hfirst => ?_
    have hsecond : link.second ∈ component :=
      (hcomponent _).2 ((hclosed i link hlink).1 ((hcomponent _).1 hfirst))
    exact (hlinks link hlink).balanced (hfinite _ hfirst) (hfinite _ hsecond)
  · rw [hvalues]
    exact relaxAll_mem hdistinct (fun link hlink => (hlinks link hlink).gentle) (hclosed i) hbounds i
      (.refl i)

/-- Two nodes next to one of infinite capacity: the step is the same with the edges turned round. -/
theorem conductionStep_exact_threeNodes : ∃ stats temperatures',
    run (conductionStep [1 / 2, 1 / 2, 1 / 2] [100, 200, 10 ^ 30] [(1, 0), (1, 2)] (1 / 2))
      ([300, 400, 500] : List ℚ) = (.ok stats, temperatures') ∧
    run (conductionStep [1 / 2, 1 / 2, 1 / 2] [100, 200, 10 ^ 30] [(2, 1), (1, 0)] (1 / 2))
      ([300, 400, 500] : List ℚ) = (.ok stats, temperatures') ∧
    valueAt temperatures' 2 = 500 := by
  obtain ⟨stats, hrun⟩ := @exists_of_toBool _ _ _ (conductionStep [1 / 2, 1 / 2, 1 / 2]
    [100, 200, 10 ^ 30] [(1, 0), (1, 2)] (1 / 2)) ([300, 400, 500] : List ℚ) (by decide +kernel)
  obtain ⟨hsame, -, hinfinite, -⟩ := conductionStep_exact hrun
  refine ⟨stats, _, hrun, hsame _ ⟨[(1, 0), (2, 1)], ?_, .swap ..⟩, hinfinite 2 (by decide +kernel)⟩
  exact .cons (.inl rfl) (.cons (.inr rfl) .nil)

end Step

end Dogmos
