import Dogmos.Legacy.Applied
import Dogmos.Legacy.Balance
import Dogmos.Legacy.Removal

/-!
# What applying the flows keeps

Every movement of a zone is applied once, whatever the mixtures hold.  How much there is of a gas
afterwards depends on the removals: a turf that sends loses at most what it holds, but what arrives
is rounded, and an immutable mixture loses nothing.

* `moved_le_iff` — when there is no more of a gas after one movement between two mixtures.
* `applyMove_le_iff` — the same over the whole zone, `falls_iff` — for all movements of a run.
* `flows_applied` — the whole zone.
* `flows_create` — a turf that sends all of an amount that is not on the grid.
-/

namespace Dogmos

namespace Legacy

open Mixture

variable {table : GasTable ℚ} {arena : TurfGraph} {mixtures : List (Mixture ℚ)}

/-! ## One movement between two mixtures -/

/-- What a mixture can lose of a gas. -/
def loses (air : Mixture ℚ) (gas : Nat) : ℚ := if air.immutable then 0 else air.getMoles gas

/-- A gas of a movement gets no more: nothing is moved, or the mixture it goes to stays as it is or
is full, or what is rounded past what can be lost is a trace. -/
def GasFits (air otherAir : Mixture ℚ) (amount : ℚ) (gas : Nat) : Prop :=
  amount / air.totalMoles ≤ 0 ∨ otherAir.immutable = true ∨
    Exact.largest ≤ otherAir.getMoles gas + loses air gas ∨
    quantize (air.getMoles gas * min (amount / air.totalMoles) 1) ≤ max (loses air gas) (1 / 10000)

section Pair

variable {air otherAir : Mixture ℚ} {amount : ℚ}

/-- What is left of a gas, and what was removed of it. -/
theorem getMoles_remove (air : Mixture ℚ) {amount : ℚ} (hratio : 0 < amount / air.totalMoles)
    (gas : Nat) :
    (air.remove amount).1.getMoles gas = (if air.immutable then air.getMoles gas else
      collected (air.getMoles gas -
        quantize (air.getMoles gas * min (amount / air.totalMoles) 1))) ∧
    (air.remove amount).2.getMoles gas =
      collected (quantize (air.getMoles gas * min (amount / air.totalMoles) 1)) := by
  refine ⟨?_, getMoles_removed air rfl hratio gas⟩
  by_cases himmutable : air.immutable = true
  · rw [if_pos himmutable]
    exact congrArg (getMoles · gas) (removeRatioInto_of_immutable himmutable _)
  · rw [if_neg himmutable]
    exact (getMoles_removeRatioInto (by simpa using himmutable) rfl hratio gas).1

theorem remove_of_nonpos (hratio : amount / air.totalMoles ≤ 0) :
    air.remove amount = (air, fromVol air.volume) :=
  removeRatioInto_of_nonpos hratio

/-- What a mixture holds of a gas after a removed one is merged into it. -/
theorem getMoles_received (hother : Bounded otherAir) (removed : Mixture ℚ)
    (table : GasTable ℚ) (gas : Nat) :
    (otherAir.merge (D := ℚ) removed table).1.getMoles gas =
      if otherAir.immutable then otherAir.getMoles gas
      else min (otherAir.getMoles gas + removed.getMoles gas) Exact.largest := by
  split
  · next himmutable =>
    unfold merge
    rw [if_pos himmutable]
  · next himmutable => exact getMoles_merge (by simpa using himmutable) gas (hother gas).2

/-- There is no more of a gas after a movement exactly if it fits. -/
theorem moved_le_iff (table : GasTable ℚ) (hair : Bounded air) (hother : Bounded otherAir)
    (amount : ℚ) (gas : Nat) :
    (air.remove amount).1.getMoles gas +
        (otherAir.merge (D := ℚ) (air.remove amount).2 table).1.getMoles gas ≤
      air.getMoles gas + otherAir.getMoles gas ↔ GasFits air otherAir amount gas := by
  obtain ⟨hlow, -⟩ := hair gas
  obtain ⟨hlow', hhigh'⟩ := hother gas
  unfold GasFits
  rw [getMoles_received hother]
  rcases le_or_gt (amount / air.totalMoles) 0 with hratio | hratio
  · rw [remove_of_nonpos hratio]
    refine iff_of_true ?_ (.inl hratio)
    have hnone : (fromVol air.volume).getMoles gas = 0 := getMoles_of_le (Nat.zero_le _)
    dsimp only
    rw [hnone, add_zero, min_eq_left hhigh']
    split <;> exact le_refl _
  rw [or_iff_right (not_le.2 hratio), (getMoles_remove air hratio gas).1,
    (getMoles_remove air hratio gas).2]
  have hportion : 0 ≤ quantize (air.getMoles gas * min (amount / air.totalMoles) 1) :=
    quantize_nonneg (mul_nonneg hlow (le_min hratio.le zero_le_one))
  generalize quantize (air.getMoles gas * min (amount / air.totalMoles) 1) = portion at hportion ⊢
  have hleft : (if air.immutable then air.getMoles gas
      else collected (air.getMoles gas - portion)) ≤ air.getMoles gas := by
    split
    · exact le_refl _
    · rw [collected_eq]
      split <;> linarith
  by_cases hstays : otherAir.immutable = true
  · rw [if_pos hstays]
    exact iff_of_true (by linarith) (.inl hstays)
  rw [if_neg hstays, or_iff_right hstays]
  rcases le_or_gt portion (1 / 10000) with htrace | hmore
  · refine iff_of_true ?_ (.inr (le_max_of_le_right htrace))
    rw [collected_eq portion, if_neg (not_lt.2 htrace), add_zero, min_eq_left hhigh']
    linarith
  rw [collected_eq portion, if_pos hmore, le_max_iff, or_iff_left (not_le.2 hmore)]
  unfold loses
  by_cases himmutable : air.immutable = true
  · rw [if_pos himmutable, if_pos himmutable, add_le_add_iff_left, min_le_iff, add_zero]
    constructor
    · rintro (hnone | hfull)
      · linarith
      · exact .inl hfull
    · rintro (hfull | hnone)
      · exact .inr hfull
      · linarith
  · rw [if_neg himmutable, if_neg himmutable]
    rcases le_or_gt portion (air.getMoles gas) with hwithin | hpast
    · refine iff_of_true ?_ (.inr hwithin)
      have hkept := (collects_collected (air.getMoles gas - portion)).le (sub_nonneg.2 hwithin)
      have harrives := min_le_left (otherAir.getMoles gas + portion) Exact.largest
      linarith
    · -- nothing is left, and more arrives than there was unless the destination is full
      rw [collected_eq, if_neg (by linarith), zero_add, min_le_iff, or_iff_left (not_le.2 hpast)]
      constructor
      · rintro (hnone | hfull) <;> linarith
      · intro hfull
        exact .inr (by linarith)

/-- The amounts after a movement are numbers of the format again. -/
theorem bounded_remove (hair : Bounded air) (amount : ℚ) :
    Bounded (air.remove amount).1 ∧ (air.remove amount).2.Nonneg := by
  rcases le_or_gt (amount / air.totalMoles) 0 with hratio | hratio
  · rw [remove_of_nonpos hratio]
    exact ⟨hair, nonneg_fromVol _⟩
  refine ⟨fun gas => ?_, fun gas => ?_⟩
  · obtain ⟨hlow, hhigh⟩ := hair gas
    have hportion : 0 ≤ quantize (air.getMoles gas * min (amount / air.totalMoles) 1) :=
      quantize_nonneg (mul_nonneg hlow (le_min hratio.le zero_le_one))
    rw [(getMoles_remove air hratio gas).1]
    split
    · exact ⟨hlow, hhigh⟩
    · refine ⟨collected_nonneg _, ?_⟩
      rw [collected_eq]
      split <;> linarith
  · rw [(getMoles_remove air hratio gas).2]
    exact collected_nonneg _

theorem bounded_merge (hother : Bounded otherAir) {removed : Mixture ℚ} (hremoved : removed.Nonneg)
    (table : GasTable ℚ) : Bounded (otherAir.merge (D := ℚ) removed table).1 := by
  intro gas
  obtain ⟨hlow, hhigh⟩ := hother gas
  rw [getMoles_received hother]
  split
  · exact ⟨hlow, hhigh⟩
  · exact ⟨le_min (add_nonneg hlow (hremoved gas)) largest_pos.le, min_le_right ..⟩

end Pair

/-! ## One movement of a zone -/

/-- A gas of a movement between two turfs gets no more. -/
def Fits (arena : TurfGraph) (mixtures : List (Mixture ℚ)) (move : Move) (gas : Nat) : Prop :=
  ∀ air otherAir, mixtures[(turfAt arena move.1).mix]? = some air →
    mixtures[(turfAt arena move.2.1).mix]? = some otherAir →
    (turfAt arena move.1).mix = (turfAt arena move.2.1).mix ∨ GasFits air otherAir move.2.2 gas

section Moves

variable {move : Move}

/-- A movement does nothing, or it moves an amount between two mixtures that are not the same. -/
theorem applyMove_cases (table : GasTable ℚ) (arena : TurfGraph) (mixtures : List (Mixture ℚ))
    (move : Move) :
    (applyMove table arena mixtures move = mixtures ∧ ∀ gas, Fits arena mixtures move gas) ∨
    ∃ air otherAir, (turfAt arena move.1).mix ≠ (turfAt arena move.2.1).mix ∧
      mixtures[(turfAt arena move.1).mix]? = some air ∧
      mixtures[(turfAt arena move.2.1).mix]? = some otherAir ∧
      applyMove table arena mixtures move =
        (mixtures.set (turfAt arena move.1).mix (air.remove move.2.2).1).set
          (turfAt arena move.2.1).mix
          (otherAir.merge (D := ℚ) (air.remove move.2.2).2 table).1 := by
  unfold applyMove moveAlong
  by_cases hsame : (turfAt arena move.1).mix = (turfAt arena move.2.1).mix
  · exact .inl ⟨if_neg (not_not.2 hsame), fun _ _ _ _ _ => .inl hsame⟩
  rw [if_pos hsame]
  unfold moveBetween
  rcases hair : mixtures[(turfAt arena move.1).mix]? with _ | air
  · exact .inl ⟨rfl, fun _ _ _ hsome => by rw [hair] at hsome; cases hsome⟩
  rcases hother : mixtures[(turfAt arena move.2.1).mix]? with _ | otherAir
  · exact .inl ⟨rfl, fun _ _ _ _ hsome => by rw [hother] at hsome; cases hsome⟩
  exact .inr ⟨air, otherAir, hsame, rfl, rfl, rfl⟩

theorem bounded_applyMove (table : GasTable ℚ) (arena : TurfGraph)
    (hbounded : ∀ m ∈ mixtures, Bounded m) (move : Move) :
    ∀ m ∈ applyMove table arena mixtures move, Bounded m := by
  rcases applyMove_cases table arena mixtures move with
    ⟨hsame, -⟩ | ⟨air, otherAir, -, hair, hother, hmoved⟩
  · rwa [hsame]
  rw [hmoved]
  intro m hm
  have hremoved := bounded_remove (hbounded air (List.mem_of_getElem? hair)) move.2.2
  rcases List.mem_or_eq_of_mem_set hm with hm | rfl
  · rcases List.mem_or_eq_of_mem_set hm with hm | rfl
    · exact hbounded m hm
    · exact hremoved.1
  · exact bounded_merge (hbounded otherAir (List.mem_of_getElem? hother)) hremoved.2 table

/-- There is no more of a gas over the zone after a movement exactly if it fits. -/
theorem applyMove_le_iff (table : GasTable ℚ) (hbounded : ∀ m ∈ mixtures, Bounded m)
    (move : Move) (gas : Nat) :
    totalOf (applyMove table arena mixtures move) gas ≤ totalOf mixtures gas ↔
      Fits arena mixtures move gas := by
  rcases applyMove_cases table arena mixtures move with
    ⟨hsame, hfits⟩ | ⟨air, otherAir, hne, hair, hother, hmoved⟩
  · rw [hsame]
    exact iff_of_true (le_refl _) (hfits gas)
  have hother' : (mixtures.set (turfAt arena move.1).mix
      (air.remove move.2.2).1)[(turfAt arena move.2.1).mix]? = some otherAir := by
    rw [List.getElem?_set_ne hne]
    exact hother
  rw [hmoved, totalOf_set hother', totalOf_set hair]
  have hpair := moved_le_iff table (hbounded air (List.mem_of_getElem? hair))
    (hbounded otherAir (List.mem_of_getElem? hother)) move.2.2 gas
  have hfits : Fits arena mixtures move gas ↔ GasFits air otherAir move.2.2 gas := by
    constructor
    · intro h
      exact (h air otherAir hair hother).resolve_left hne
    · intro h air' otherAir' hair' hother'
      rw [hair] at hair'
      rw [hother] at hother'
      obtain rfl := Option.some.inj hair'
      obtain rfl := Option.some.inj hother'
      exact .inr h
  rw [hfits, ← hpair]
  constructor <;> intro h <;> linarith

end Moves

/-! ## All movements of a run -/

/-- Every movement of a run fits the mixtures it finds. -/
def AllFit (table : GasTable ℚ) (arena : TurfGraph) (gas : Nat) :
    List (Mixture ℚ) → List Move → Prop
  | _, [] => True
  | mixtures, move :: moves => Fits arena mixtures move gas ∧
      AllFit table arena gas (applyMove table arena mixtures move) moves

/-- No movement of a run makes more of a gas. -/
def Falls (table : GasTable ℚ) (arena : TurfGraph) (gas : Nat) :
    List (Mixture ℚ) → List Move → Prop
  | _, [] => True
  | mixtures, move :: moves =>
    totalOf (applyMove table arena mixtures move) gas ≤ totalOf mixtures gas ∧
      Falls table arena gas (applyMove table arena mixtures move) moves

theorem falls_iff (table : GasTable ℚ) (arena : TurfGraph) (hbounded : ∀ m ∈ mixtures, Bounded m)
    (moves : List Move) (gas : Nat) :
    Falls table arena gas mixtures moves ↔ AllFit table arena gas mixtures moves := by
  induction moves generalizing mixtures with
  | nil => exact Iff.rfl
  | cons move moves ih =>
    exact and_congr (applyMove_le_iff table hbounded move gas)
      (ih (bounded_applyMove table arena hbounded move))

theorem Falls.le {moves : List Move} {gas : Nat} (h : Falls table arena gas mixtures moves) :
    totalOf (moves.foldl (applyMove table arena) mixtures) gas ≤ totalOf mixtures gas := by
  induction moves generalizing mixtures with
  | nil => exact le_refl _
  | cons move moves ih => exact (ih h.2).trans h.1


/-! ## The whole zone -/

variable {graph : ZoneGraph ℚ}

theorem OneWay.of_antisymmetric (h : Flow.Antisymmetric graph.flow) : OneWay graph := by
  intro a b hpos hedge hback
  have hflow := h a b
  rw [ZoneGraph.flow, ZoneGraph.flow, if_pos hedge, if_pos hback] at hflow
  linarith

/-- No edge has two movements. -/
theorem nodup_positives (h : graph.edges.Nodup) :
    ((positives graph).map fun move => (move.1, move.2.1)).Nodup := by
  have hends : (positives graph).map (fun move => (move.1, move.2.1)) =
      graph.edges.filter fun edge => 0 < graph.weight edge.1 edge.2 := by
    simp [positives, Function.comp_def]
  rw [hends]
  exact h.filter _

theorem positives_eq_nil (h : ∀ edge ∈ graph.edges, graph.weight edge.1 edge.2 = 0) :
    positives graph = [] := by
  rw [positives, List.map_eq_nil_iff, List.filter_eq_nil_iff]
  intro edge hedge
  simp [h edge hedge]

/-- **The flows of a zone are applied once each**: with one turn more than there are movements the
recursion comes to an end, what was moved and reported is every movement the edges held, once for
its edge, and nothing is left on any edge.  No gas gets more in any step exactly if all movements
of the run fit, and then there is no more of it at the end. -/
theorem flows_applied (table : GasTable ℚ) (arena : TurfGraph) (hwf : graph.WellFormed)
    (hedges : graph.edges.Nodup)
    (hoccupied : ∀ node ∈ graph.nodes, (arena.turfs.get node).isSome = true)
    (hanti : Flow.Antisymmetric graph.flow) (hbounded : ∀ m ∈ mixtures, Bounded m) (fuel : Nat)
    (hfuel : (positives graph).length < fuel) :
    ∃ after moves,
      finalizeNodes (D := ℚ) table arena fuel graph.nodes ⟨graph, mixtures, []⟩ = some after ∧
      finalizeEqZone (D := ℚ) table arena fuel mixtures graph = some (after.mixtures,
        if moves.isEmpty then none else some (moves.map (reportOf arena))) ∧
      after.mixtures = moves.foldl (applyMove table arena) mixtures ∧
      moves.Perm (positives graph) ∧ (moves.map fun move => (move.1, move.2.1)).Nodup ∧
      (∀ edge ∈ graph.edges, after.graph.weight edge.1 edge.2 = 0) ∧
      ∀ gas, (Falls table arena gas mixtures moves ↔ AllFit table arena gas mixtures moves) ∧
        (AllFit table arena gas mixtures moves →
          totalOf after.mixtures gas ≤ totalOf mixtures gas) := by
  have hstart : (⟨graph, mixtures, []⟩ : Flows ℚ).graph.edges = graph.edges := rfl
  obtain ⟨after, moves, hafter, happlies, hperm, hzero⟩ := finalizeNodes_applies table hwf
    hoccupied (fun _ hnode => hnode) hstart (OneWay.of_antisymmetric hanti) hfuel
  have hnone : ∀ edge ∈ after.graph.edges, after.graph.weight edge.1 edge.2 = 0 := by
    rw [happlies.edges]
    exact fun edge hedge => hzero edge.1 (hwf.ends edge hedge).1 edge.2 hedge
  have hall : moves.Perm (positives graph) := by
    rw [positives_eq_nil hnone, List.append_nil] at hperm
    exact hperm.symm
  have hreports : after.pressures = moves.map (reportOf arena) := by simpa using happlies.pressures
  refine ⟨after, moves, hafter, ?_, happlies.mixtures, hall,
    ((hall.map _).nodup_iff).2 (nodup_positives hedges), happlies.edges ▸ hnone, fun gas => ?_⟩
  · rw [finalizeEqZone, hafter, Option.map_some, hreports]
    simp
  · have hfalls := falls_iff table arena hbounded moves gas
    refine ⟨hfalls, fun hfit => ?_⟩
    rw [happlies.mixtures]
    exact (hfalls.2 hfit).le

/-! ## Two turfs -/

/-- Two turfs, the first of which is to send an amount to the second. -/
def pairZone (amount : ℚ) : ZoneGraph ℚ :=
  { nodes := [0, 1]
    edges := [(0, 1), (1, 0)]
    weight := fun x y => if x < y then amount else -amount }

theorem wellFormed_pairZone (amount : ℚ) : (pairZone amount).WellFormed where
  nodes := (by decide : [0, 1].Nodup)
  ends := by
    intro edge hedge
    simp only [pairZone, List.mem_cons, List.not_mem_nil, or_false] at hedge ⊢
    rcases hedge with rfl | rfl <;> simp

theorem antisymmetric_pairZone (amount : ℚ) : Flow.Antisymmetric (pairZone amount).flow := by
  intro x y
  rcases x with _ | _ | x <;> rcases y with _ | _ | y <;> simp [ZoneGraph.flow, pairZone]

theorem flows_applied_pairZone : ∃ (after : Flows ℚ) (moves : List Move),
    finalizeNodes (D := ℚ) oneGas row 2 [0, 1] ⟨pairZone (1 / 2), rowMixtures 1 0 0, []⟩ =
      some after ∧
    moves.Perm (positives (pairZone (1 / 2))) ∧
    totalOf after.mixtures 0 ≤ totalOf (rowMixtures 1 0 0) 0 := by
  have hbounded : ∀ m ∈ rowMixtures 1 0 0, Bounded m :=
    bounded_rowMixtures (by norm_num) (by norm_num) (by norm_num)
  obtain ⟨after, moves, hafter, -, -, hperm, -, -, htotals⟩ := flows_applied oneGas row
    (wellFormed_pairZone (1 / 2)) (by decide : [(0, 1), (1, 0)].Nodup) (by decide)
    (antisymmetric_pairZone (1 / 2)) hbounded 2 (by decide +kernel)
  have hmoves : positives (pairZone (1 / 2)) = [(0, 1, 1 / 2)] := by decide +kernel
  have hone := hperm
  rw [hmoves] at hone
  obtain rfl := List.perm_singleton.1 hone
  refine ⟨after, _, hafter, hperm, (htotals 0).2 ⟨?_, trivial⟩⟩
  intro air otherAir hair hother
  obtain rfl : single 1 = air := Option.some.inj hair
  refine .inr (.inr (.inr (.inr ?_)))
  decide +kernel

/-- A turf sends all it holds, which is not on the grid, and more of it arrives. -/
theorem flows_create : ¬∀ (table : GasTable ℚ) (arena : TurfGraph) (graph : ZoneGraph ℚ)
    (mixtures : List (Mixture ℚ)) (fuel : Nat), graph.WellFormed → graph.edges.Nodup →
    (∀ node ∈ graph.nodes, (arena.turfs.get node).isSome = true) →
    Flow.Antisymmetric graph.flow → (∀ m ∈ mixtures, Bounded m) →
    (positives graph).length < fuel →
    ∃ after reports, finalizeEqZone (D := ℚ) table arena fuel mixtures graph =
        some (after, reports) ∧
      ∀ gas, totalOf after gas ≤ totalOf mixtures gas := by
  intro h
  have hbounded : ∀ m ∈ rowMixtures (123456 / 1000000) 0 0, Bounded m :=
    bounded_rowMixtures (by norm_num) (by norm_num) (by norm_num)
  obtain ⟨after, reports, hafter, htotals⟩ := h oneGas row (pairZone (123456 / 1000000)) _ 2
    (wellFormed_pairZone _) (by decide : [(0, 1), (1, 0)].Nodup) (by decide)
    (antisymmetric_pairZone _) hbounded (by decide +kernel)
  have hmore : (match finalizeEqZone (D := ℚ) oneGas row 2 (rowMixtures (123456 / 1000000) 0 0)
      (pairZone (123456 / 1000000)) with
    | some (after, _) => decide (totalOf after 0 ≤
        totalOf (rowMixtures (123456 / 1000000) 0 0) 0)
    | none => false) = false := by decide +kernel
  rw [hafter] at hmore
  exact absurd (htotals 0) (by simpa using hmore)

end Legacy

end Dogmos
