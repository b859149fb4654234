import Dogmos.Exact.Thermal
import Dogmos.Runs.HeatStage

/-!
# The exchange of heat between a turf and its mixture

`compute_stage_heat_node` lets a turf radiate and then exchange heat with its mixture.  The part of
the difference that is exchanged grows with the conductivity of the turf and with the length of the
tick (`exchangeFraction`), so the exchange is stable exactly when that part is at most one and
neither side meets the floor (`ExchangeStable`).  Radiation only cools, and not below the floor
(`radiate_bounds`).
-/

namespace Dogmos

open DogmosWorld Exec

/-! ## Radiation -/

theorem exact_byondInfinityThreshold : (byondInfinityThreshold : ℚ) = 10 ^ 30 := by
  norm_num [byondInfinityThreshold]

theorem exact_baseHeatStepSeconds : (baseHeatStepSeconds : ℚ) = 1 / 2 := by
  norm_num [baseHeatStepSeconds]

theorem exact_openHeatTransferCoefficient : (openHeatTransferCoefficient : ℚ) = 2 / 5 := by
  norm_num [openHeatTransferCoefficient]

theorem validTurfHeatState_iff {heat : TurfHeatState ℚ} :
    validTurfHeatState heat = true ↔ 0 < heat.thermalConductivity ∧ 0 < heat.heatCapacity := by
  simp [validTurfHeatState]

theorem harmonicHeatCapacity_nonneg {a b : ℚ} (ha : 0 < a) (hb : 0 < b) :
    0 ≤ harmonicHeatCapacity a b := by
  rw [harmonicHeatCapacity_eq ha hb]
  positivity

theorem heatExchangeEnergy_nonneg {delta a b : ℚ} (hdelta : 0 ≤ delta) (ha : 0 < a) (hb : 0 < b) :
    0 ≤ heatExchangeEnergy delta a b := by
  unfold heatExchangeEnergy
  split
  · exact exact_zero.ge
  · split
    · positivity
    · split
      · positivity
      · exact mul_nonneg hdelta (harmonicHeatCapacity_nonneg ha hb)

variable {heat : TurfHeatState ℚ} {seconds temperature : ℚ}

/-- Emission to space exceeds what is received above the temperature of space. -/
theorem received_le_emitted (hseconds : 0 < seconds) (h : 27 / 10 ≤ temperature) :
    radiationFromSpace (F := ℚ) (D := ℚ) * seconds ≤
      stefanBoltzmannConstant * seconds * FloatFormat.pow4 temperature := by
  have hpow : ((27 / 10 : ℚ)) ^ 4 ≤ temperature ^ 4 := pow_le_pow_left₀ (by norm_num) h 4
  have hconstant : (0 : ℚ) ≤ stefanBoltzmannConstant := by norm_num [stefanBoltzmannConstant]
  have hreceived : radiationFromSpace (F := ℚ) (D := ℚ) =
      stefanBoltzmannConstant * (27 / 10) ^ 4 := by
    unfold radiationFromSpace
    rw [exact_minimumTemperatureK]
    show (stefanBoltzmannConstant : ℚ) * (27 / 10) * (27 / 10) * (27 / 10) * (27 / 10) = _
    ring
  have hpower : FloatFormat.pow4 temperature = temperature ^ 4 := by
    unfold FloatFormat.pow4
    ring
  rw [hreceived, hpower]
  calc stefanBoltzmannConstant * (27 / 10) ^ 4 * seconds
      = stefanBoltzmannConstant * seconds * (27 / 10) ^ 4 := by ring
    _ ≤ stefanBoltzmannConstant * seconds * temperature ^ 4 :=
        mul_le_mul_of_nonneg_left hpow (mul_nonneg hconstant hseconds.le)

/-- What is taken from a temperature above the floor leaves it between the floor and itself. -/
theorem max_sub_bounds {taken : ℚ} (htaken : 0 ≤ taken) (h : 27 / 10 ≤ temperature) :
    max (temperature - taken) (27 / 10) ≤ temperature ∧
      (27 / 10 ≤ temperature → 27 / 10 ≤ max (temperature - taken) (27 / 10)) :=
  ⟨max_le (by linarith) h, fun _ => le_max_right ..⟩

/-- Radiation cools, to the floor at most. -/
theorem radiate_bounds (realistic : Bool) (hvalid : validTurfHeatState heat = true)
    (hseconds : 0 < seconds) :
    radiate (D := ℚ) realistic heat seconds temperature ≤ temperature ∧
      (27 / 10 ≤ temperature →
        27 / 10 ≤ radiate (D := ℚ) realistic heat seconds temperature) := by
  obtain ⟨hconductivity, hcapacity⟩ := validTurfHeatState_iff.1 hvalid
  unfold radiate
  dsimp only
  split
  · next hwarm =>
    rw [Bool.and_eq_true, decide_eq_true_eq] at hwarm
    have hfloor : (27 / 10 : ℚ) ≤ temperature := le_trans (by norm_num) hwarm.2.le
    split
    · have hemitted := received_le_emitted hseconds hfloor
      simp only [Exact.narrow_eq, Exact.widen_eq, Exact.fmax_eq, exact_minimumTemperatureK]
      exact max_sub_bounds (div_nonneg (sub_nonneg.2 hemitted) hcapacity.le) hfloor
    · split
      · have hscale : 0 ≤ seconds / baseHeatStepSeconds := by
          rw [exact_baseHeatStepSeconds]
          positivity
        have henergy : 0 ≤ heatExchangeEnergy (heat.thermalConductivity *
            (seconds / baseHeatStepSeconds) * (temperature - minimumTemperatureK)) 7000.0
            heat.heatCapacity := by
          refine heatExchangeEnergy_nonneg (mul_nonneg (mul_nonneg hconductivity.le hscale) ?_)
            (by norm_num) hcapacity
          rw [exact_minimumTemperatureK]
          linarith
        simp only [Exact.fmax_eq, exact_minimumTemperatureK] at henergy ⊢
        exact max_sub_bounds (div_nonneg henergy hcapacity.le) hfloor
      · exact ⟨le_rfl, id⟩
  · exact ⟨le_rfl, id⟩

/-! ## The difference that is exchanged -/

/-- The part of a difference that a turf exchanges with its mixture in a tick. -/
def exchangeFraction (heat : TurfHeatState ℚ) (seconds : ℚ) : ℚ :=
  heat.thermalConductivity * openHeatTransferCoefficient * (seconds / baseHeatStepSeconds)

theorem exchangeFraction_nonneg (hvalid : validTurfHeatState heat = true) (hseconds : 0 < seconds) :
    0 ≤ exchangeFraction heat seconds := by
  obtain ⟨hconductivity, -⟩ := validTurfHeatState_iff.1 hvalid
  unfold exchangeFraction
  rw [exact_openHeatTransferCoefficient, exact_baseHeatStepSeconds]
  positivity

section Fraction

variable {k a b x y : ℚ}

/-- The energy before the floor is that before the exchange, whatever part is exchanged. -/
theorem unfloored_energy (ha : 0 < a) (hb : 0 < b) :
    a * firstUnfloored k a b x y + b * secondUnfloored k a b x y = a * x + b * y := by
  unfold firstUnfloored secondUnfloored
  field_simp
  ring

theorem unfloored_difference (ha : 0 < a) (hb : 0 < b) :
    firstUnfloored k a b x y - secondUnfloored k a b x y = (1 - k) * (x - y) := by
  have hab : a + b ≠ 0 := (add_pos ha hb).ne'
  unfold firstUnfloored secondUnfloored
  rw [harmonicHeatCapacity_eq ha hb]
  field_simp
  ring

/-- Heat is shared when at most the whole difference is exchanged and nothing meets the floor, and
only then. -/
theorem heatShared_floored_iff (ha : 0 < a) (hb : 0 < b) (hk : 0 ≤ k) (hxy : x ≠ y) :
    HeatShared True a b x y (max (firstUnfloored k a b x y) (27 / 10))
        (max (secondUnfloored k a b x y) (27 / 10)) ↔
      k ≤ 1 ∧ 27 / 10 ≤ firstUnfloored k a b x y ∧ 27 / 10 ≤ secondUnfloored k a b x y := by
  constructor
  · intro h
    have henergy := h.energy trivial
    rw [← unfloored_energy (k := k) (x := x) (y := y) ha hb] at henergy
    have hdifference := unfloored_difference (k := k) (x := x) (y := y) ha hb
    have hle := h.le
    have hge := h.ge
    generalize firstUnfloored k a b x y = u at henergy hdifference hle hge ⊢
    generalize secondUnfloored k a b x y = v at henergy hdifference hle hge ⊢
    have hu : 0 ≤ a * (max u (27 / 10) - u) := mul_nonneg ha.le (sub_nonneg.2 (le_max_left ..))
    have hv : 0 ≤ b * (max v (27 / 10) - v) := mul_nonneg hb.le (sub_nonneg.2 (le_max_left ..))
    have hu' : a * (max u (27 / 10) - u) = 0 := by linarith
    have hv' : b * (max v (27 / 10) - v) = 0 := by linarith
    rw [mul_eq_zero, sub_eq_zero] at hu' hv'
    have hfirst := hu'.resolve_left ha.ne'
    have hsecond := hv'.resolve_left hb.ne'
    rw [hfirst, hsecond] at hle hge
    refine ⟨?_, max_eq_left_iff.1 hfirst, max_eq_left_iff.1 hsecond⟩
    -- neither side passes the other, so the difference keeps its sign
    rcases lt_or_gt_of_ne hxy with hlt | hgt
    · have horder := hle hlt.le
      by_contra hlarge
      have hproduct := mul_pos_of_neg_of_neg (sub_neg.2 (not_le.1 hlarge)) (sub_neg.2 hlt)
      linarith
    · have horder := hge hgt.le
      by_contra hlarge
      have hproduct := mul_neg_of_neg_of_pos (sub_neg.2 (not_le.1 hlarge)) (sub_pos.2 hgt)
      linarith
  · rintro ⟨hk', hfirst, hsecond⟩
    have hexchange := unfloored_exchange (x := x) (y := y) ha hb hk hk'
    rw [max_eq_left hfirst, max_eq_left hsecond]
    exact ⟨fun _ => hexchange.sum, hexchange.first, hexchange.second, hexchange.le, hexchange.ge⟩

end Fraction

/-! ## What a node leaves -/

section Node

variable {w v : DogmosWorld ℚ} {state : StageHeatState ℚ} {handle : MixtureHandle}
  {mixture : MixtureRecord ℚ} {α : Type} {Q : α → DogmosWorld ℚ → Prop}

theorem leaves_heatState_bind {f : StageHeatState ℚ → WorldM ℚ α}
    (hstate : w.stageHeat = some state) (h : Leaves w (f state) Q) :
    Leaves w (heatState >>= f) Q := by
  unfold heatState
  refine leaves_check_bind fun found hfound => ?_
  rw [hstate] at hfound
  cases hfound
  exact h

/-- The temperatures of the mixture and of the turf after they exchanged heat. -/
def afterExchange (heats : List ℚ) (mixture : MixtureRecord ℚ) (heat : TurfHeatState ℚ)
    (seconds temperature : ℚ) : ℚ × ℚ :=
  let k := exchangeFraction heat seconds
  let capacity := recordHeatCapacity mixture heats
  (max (firstUnfloored k capacity heat.heatCapacity mixture.temperature temperature) (27 / 10),
    max (secondUnfloored k capacity heat.heatCapacity mixture.temperature temperature) (27 / 10))

/-- What the exchange with a mixture leaves of the scratch: the turf is given its temperature, and
a mixture that exchanges heat is staged. -/
structure Exchanged (w v : DogmosWorld ℚ) (state : StageHeatState ℚ) (handle : MixtureHandle)
    (mixture : MixtureRecord ℚ) (heat : TurfHeatState ℚ) (seconds temperature temperature' : ℚ)
    (state' : StageHeatState ℚ) : Prop where
  world : v = { w with stageHeat := some state' }
  temperatures : state'.temperatures = state.temperatures
  unlinked : SlotSet.contains state.linkedMixtures handle = false
  linked : state'.linkedMixtures = SlotIndex.insert state.linkedMixtures handle ()
  staged : exchangesHeat temperature (recordHeatCapacity mixture w.heats) mixture = false ∧
      state'.stagedMixtures = state.stagedMixtures ∧ temperature' = temperature ∨
    exchangesHeat temperature (recordHeatCapacity mixture w.heats) mixture = true ∧
      state'.stagedMixtures = state.stagedMixtures.insert handle { mixture with
        temperature := (afterExchange w.heats mixture heat seconds temperature).1 } ∧
      temperature' = (afterExchange w.heats mixture heat seconds temperature).2

theorem leaves_exchangeWithMixture {heat : TurfHeatState ℚ} {seconds temperature : ℚ}
    (hstate : w.stageHeat = some state) :
    Leaves w (exchangeWithMixture handle heat seconds temperature) fun temperature' v =>
      ∃ mixture state', w.requireHandle handle = .ok mixture ∧
        Exchanged w v state handle mixture heat seconds temperature temperature' state' := by
  unfold exchangeWithMixture
  refine leaves_heatState_bind hstate ?_
  dsimp only [SlotSet.insertNew, setHeat]
  refine leaves_modify_bind (leaves_ite (fun _ => leaves_throw _) fun hnew => ?_)
  refine leaves_check_bind fun registry hregistry => leaves_check_bind fun mixture hmixture => ?_
  have hheats : registry.specificHeats = w.heats := requireGases_eq_ok (w := w) hregistry
  have hfound : w.requireHandle handle = .ok mixture := hmixture
  rw [hheats]
  have hunlinked : SlotSet.contains state.linkedMixtures handle = false := by
    simpa [SlotSet.contains] using hnew
  refine leaves_ite (fun hidle => leaves_pure ?_) fun hactive => ?_
  · refine ⟨mixture, _, hfound, rfl, rfl, hunlinked, rfl, .inl ⟨by simpa using hidle, rfl, rfl⟩⟩
  · refine leaves_ite (fun _ => leaves_throw _) fun _ => leaves_modify_bind (leaves_pure ?_)
    refine ⟨mixture, _, hfound, rfl, rfl, hunlinked, rfl, .inr ⟨by simpa using hactive, ?_⟩⟩
    unfold afterExchange
    rw [exact_minimumTemperatureK]
    exact ⟨rfl, rfl⟩

/-- What the computation of a node leaves: the turf is given a temperature, after it radiated and
exchanged heat with its mixture. -/
theorem leaves_computeStageHeatNode {index : Nat} {node : StageHeatNode ℚ} {seconds temperature : ℚ}
    (hstate : w.stageHeat = some state) (hnode : state.nodes[index]? = some node)
    (htemperature : state.temperatures[index]? = some temperature) :
    Leaves w (computeStageHeatNode (D := ℚ) index seconds) fun _ v =>
      let radiated := radiate (D := ℚ) w.realisticSpaceRadiation node.heat seconds temperature
      ∃ temperature' state', v = { w with stageHeat := some state' } ∧
        state'.temperatures = state.temperatures.set index temperature' ∧
        (node.mixture = none ∧ temperature' = radiated ∧
            state'.stagedMixtures = state.stagedMixtures ∧
            state'.linkedMixtures = state.linkedMixtures ∨
          ∃ handle mixture inner, node.mixture = some handle ∧
            w.requireHandle handle = .ok mixture ∧ state'.stagedMixtures = inner.stagedMixtures ∧
            state'.linkedMixtures = inner.linkedMixtures ∧
            Exchanged w { w with stageHeat := some inner } state handle mixture node.heat seconds
              radiated temperature' inner) := by
  dsimp only
  unfold computeStageHeatNode
  refine leaves_heatState_bind hstate (leaves_get_bind ?_)
  rw [hnode, htemperature]
  dsimp only [Option.getD_some]
  generalize radiate (D := ℚ) w.realisticSpaceRadiation node.heat seconds temperature = radiated
  rcases hmixture : node.mixture with _ | handle
  · dsimp only
    rw [pure_bind]
    refine leaves_heatState_bind hstate (leaves_modify ?_)
    exact ⟨radiated, _, rfl, rfl, .inl ⟨rfl, rfl, rfl, rfl⟩⟩
  · dsimp only
    refine leaves_bind (leaves_exchangeWithMixture hstate) ?_
    rintro temperature' v ⟨mixture, inner, hfound, hexchanged⟩
    obtain rfl := hexchanged.world
    refine leaves_heatState_bind rfl (leaves_modify ?_)
    refine ⟨temperature', _, rfl, by rw [hexchanged.temperatures], .inr ?_⟩
    exact ⟨handle, mixture, inner, rfl, hfound, rfl, rfl, hexchanged⟩

/-! ## Mixtures are staged once they are linked -/

/-- The mixtures that are staged are live and linked to a turf that was computed. -/
def DogmosWorld.StagedLinked (w : DogmosWorld ℚ) : Prop :=
  ∀ state, w.stageHeat = some state → ∀ handle, state.stagedMixtures[handle]?.isSome →
    SlotSet.contains state.linkedMixtures handle = true ∧ w.Live handle

/-- Scratch that stages nothing yet. -/
theorem stagedLinked_of_unstaged (hstate : w.stageHeat = some state)
    (hstaged : state.stagedMixtures.isEmpty) : w.StagedLinked := by
  intro found hfound handle hhandle
  rw [hstate] at hfound
  cases hfound
  rw [Std.TreeMap.getElem?_of_isEmpty hstaged] at hhandle
  cases hhandle

/-! ## The exchange is stable -/

/-- The temperature of a captured turf. -/
def DogmosWorld.turfTemperature (w : DogmosWorld ℚ) (index : Nat) : Option ℚ :=
  w.stageHeat.bind fun state => state.temperatures[index]?

/-- The mixture of a handle as the stage has it: staged, or as it is visible. -/
def DogmosWorld.heatedMixture (w : DogmosWorld ℚ) (handle : MixtureHandle) :
    Option (MixtureRecord ℚ) :=
  (w.stageHeat.bind fun state => state.stagedMixtures[handle]?).or (w.requireHandle handle).toOption

/-- A turf and its mixture share heat, and nothing of the mixture but its temperature changes. -/
def TurfShares (v : DogmosWorld ℚ) (index : Nat) (handle : MixtureHandle)
    (mixture : MixtureRecord ℚ) (heat : TurfHeatState ℚ) (temperature : ℚ) : Prop :=
  ∃ gas turf, v.heatedMixture handle = some { mixture with temperature := gas } ∧
    v.turfTemperature index = some turf ∧
    HeatShared True (recordHeatCapacity mixture v.heats) heat.heatCapacity mixture.temperature
      temperature gas turf

/-- When an exchange is stable: nothing is exchanged, or at most the whole difference is, and
neither side meets the floor. -/
def ExchangeStable (heats : List ℚ) (mixture : MixtureRecord ℚ) (heat : TurfHeatState ℚ)
    (seconds temperature : ℚ) : Prop :=
  exchangesHeat temperature (recordHeatCapacity mixture heats) mixture = false ∨
    (exchangeFraction heat seconds ≤ 1 ∧
      27 / 10 ≤ firstUnfloored (exchangeFraction heat seconds) (recordHeatCapacity mixture heats)
        heat.heatCapacity mixture.temperature temperature ∧
      27 / 10 ≤ secondUnfloored (exchangeFraction heat seconds) (recordHeatCapacity mixture heats)
        heat.heatCapacity mixture.temperature temperature)

/-- The heat that a mixture gives to a turf of some temperature, or takes from it if it is
negative. -/
def exchangedHeat (heats : List ℚ) (mixture : MixtureRecord ℚ) (heat : TurfHeatState ℚ)
    (seconds temperature : ℚ) : ℚ :=
  exchangeFraction heat seconds * (mixture.temperature - temperature) *
    harmonicHeatCapacity (recordHeatCapacity mixture heats) heat.heatCapacity

/-- When a turf that radiated from `temperature` down to `radiated` does not end above the first:
its mixture gives it no heat, or heat that warms it no further than it was, and it was not below
the floor. -/
def WarmsLess (w : DogmosWorld ℚ) (node : StageHeatNode ℚ) (seconds temperature radiated : ℚ) :
    Prop :=
  ∀ handle mixture, node.mixture = some handle → w.requireHandle handle = .ok mixture →
    exchangesHeat radiated (recordHeatCapacity mixture w.heats) mixture = true →
      27 / 10 ≤ temperature ∧ radiated +
        exchangedHeat w.heats mixture node.heat seconds radiated / node.heat.heatCapacity ≤
          temperature

instance (heats : List ℚ) (mixture : MixtureRecord ℚ) (heat : TurfHeatState ℚ)
    (seconds temperature : ℚ) : Decidable (ExchangeStable heats mixture heat seconds temperature) :=
  inferInstanceAs (Decidable (_ ∨ _))

theorem exchangesHeat_eq_true {capacity temperature : ℚ}
    (h : exchangesHeat temperature capacity mixture = true) :
    0 < capacity ∧ mixture.temperature ≠ temperature := by
  unfold exchangesHeat at h
  rw [exact_minimumTemperatureDelta, exact_minimumHeatCapacity] at h
  simp only [Bool.and_eq_true, decide_eq_true_eq, Exact.fabs_eq] at h
  obtain ⟨⟨-, hdelta⟩, hcapacity⟩ := h
  refine ⟨by linarith, fun heq => ?_⟩
  rw [heq, sub_self, abs_zero] at hdelta
  linarith

/-- What the computation of a node with a mixture leaves, in terms of the temperature the turf
radiated down to. -/
theorem leaves_turfShares {index : Nat} {node : StageHeatNode ℚ} {seconds temperature : ℚ}
    (hlinked : w.StagedLinked) (hstate : w.stageHeat = some state)
    (hnode : state.nodes[index]? = some node)
    (htemperature : state.temperatures[index]? = some temperature)
    (hhandle : node.mixture = some handle) (hmixture : w.requireHandle handle = .ok mixture)
    (hvalid : validTurfHeatState node.heat = true) (hseconds : 0 < seconds) :
    Leaves w (computeStageHeatNode (D := ℚ) index seconds) fun _ v =>
      let radiated := radiate (D := ℚ) w.realisticSpaceRadiation node.heat seconds temperature
      TurfShares v index handle mixture node.heat radiated ↔
        ExchangeStable w.heats mixture node.heat seconds radiated := by
  obtain ⟨-, hcapacity⟩ := validTurfHeatState_iff.1 hvalid
  have hindex : index < state.temperatures.length := (List.getElem?_eq_some_iff.1 htemperature).1
  refine leaves_mono (leaves_computeStageHeatNode hstate hnode htemperature) ?_
  dsimp only
  generalize radiate (D := ℚ) w.realisticSpaceRadiation node.heat seconds temperature = radiated
  rintro _ v ⟨temperature', state', rfl, htemperatures, hleft⟩
  rcases hleft with ⟨hnone, -⟩ | ⟨found, record, inner, hsome, hrecord, hstaged, -, h⟩
  · rw [hhandle] at hnone
    cases hnone
  rw [hhandle] at hsome
  cases hsome
  rw [hmixture] at hrecord
  cases hrecord
  have hturf : turfTemperature { w with stageHeat := some state' } index = some temperature' := by
    unfold turfTemperature
    rw [Option.bind_some, htemperatures, List.getElem?_set_self hindex]
  have hunstaged : state.stagedMixtures[handle]? = none := by
    by_contra hsome
    have hcontains := (hlinked state hstate handle (Option.isSome_iff_ne_none.2 hsome)).1
    rw [h.unlinked] at hcontains
    cases hcontains
  rcases h.staged with ⟨hidle, hsame, rfl⟩ | ⟨hactive, hinserted, htemperature'⟩
  · refine iff_of_true ⟨mixture.temperature, temperature', ?_, hturf, ?_⟩ (.inl hidle)
    · unfold heatedMixture
      rw [Option.bind_some, hstaged, hsame, hunstaged, Option.none_or]
      exact congrArg Except.toOption hmixture
    · exact ⟨fun _ => rfl, Set.left_mem_uIcc, Set.right_mem_uIcc, id, id⟩
  · obtain ⟨hgas, hne⟩ := exchangesHeat_eq_true hactive
    have hfraction := exchangeFraction_nonneg hvalid hseconds
    have hstable : ExchangeStable w.heats mixture node.heat seconds radiated ↔ _ :=
      or_iff_right (by simp [hactive])
    have hfound : heatedMixture { w with stageHeat := some state' } handle = some { mixture with
        temperature := (afterExchange w.heats mixture node.heat seconds radiated).1 } := by
      unfold heatedMixture
      rw [Option.bind_some, hstaged, hinserted, Std.TreeMap.getElem?_insert_self, Option.some_or]
    rw [hstable, ← heatShared_floored_iff hgas hcapacity hfraction hne]
    constructor
    · rintro ⟨gas, turf, hgasLeft, hturfLeft, hshared⟩
      rw [hfound] at hgasLeft
      rw [hturf, htemperature'] at hturfLeft
      have hsame := congrArg (Option.map MixtureRecord.temperature) hgasLeft
      cases hsame
      cases hturfLeft
      exact hshared
    · intro hshared
      exact ⟨_, _, hfound, hturf.trans (congrArg some htemperature'), hshared⟩

theorem radiate_of_covered (realistic : Bool) (h : heat.adjacentToSpace = false) :
    radiate (D := ℚ) realistic heat seconds temperature = temperature := by
  unfold radiate
  rw [h, Bool.false_and]
  exact if_neg Bool.false_ne_true

/-- The temperature a radiating turf is left with. -/
theorem leaves_radiating {index : Nat} {node : StageHeatNode ℚ} {seconds temperature : ℚ}
    (hstate : w.stageHeat = some state) (hnode : state.nodes[index]? = some node)
    (htemperature : state.temperatures[index]? = some temperature)
    (hvalid : validTurfHeatState node.heat = true) (hseconds : 0 < seconds) :
    Leaves w (computeStageHeatNode (D := ℚ) index seconds) fun _ v =>
      ∃ temperature', v.turfTemperature index = some temperature' ∧
        (27 / 10 ≤ temperature → 27 / 10 ≤ temperature') ∧
        (temperature' ≤ temperature ↔ WarmsLess w node seconds temperature
          (radiate (D := ℚ) w.realisticSpaceRadiation node.heat seconds temperature)) := by
  obtain ⟨hle, hfloor⟩ := @radiate_bounds node.heat seconds temperature w.realisticSpaceRadiation
    hvalid hseconds
  have hindex : index < state.temperatures.length := (List.getElem?_eq_some_iff.1 htemperature).1
  refine leaves_mono (leaves_computeStageHeatNode hstate hnode htemperature) ?_
  dsimp only
  generalize radiate (D := ℚ) w.realisticSpaceRadiation node.heat seconds temperature = radiated at *
  rintro _ v ⟨temperature', state', rfl, htemperatures, hleft⟩
  refine ⟨temperature', ?_, ?_⟩
  · unfold turfTemperature
    rw [Option.bind_some, htemperatures, List.getElem?_set_self hindex]
  rcases hleft with ⟨hnone, rfl, -⟩ | ⟨handle, mixture, inner, hsome, hrecord, -, -, h⟩
  · refine ⟨hfloor, iff_of_true hle fun handle mixture hhandle => ?_⟩
    rw [hnone] at hhandle
    cases hhandle
  have hwarms : WarmsLess w node seconds temperature radiated ↔
      (exchangesHeat radiated (recordHeatCapacity mixture w.heats) mixture = true →
        27 / 10 ≤ temperature ∧ radiated + exchangedHeat w.heats mixture node.heat seconds
          radiated / node.heat.heatCapacity ≤ temperature) := by
    refine ⟨fun hless => hless handle mixture hsome hrecord, fun hless found record hfound => ?_⟩
    rw [hsome] at hfound
    cases hfound
    intro hsame
    rw [hrecord] at hsame
    cases hsame
    exact hless
  rw [hwarms]
  rcases h.staged with ⟨hidle, -, rfl⟩ | ⟨hactive, -, rfl⟩
  · refine ⟨hfloor, iff_of_true hle fun hactive => ?_⟩
    rw [hidle] at hactive
    cases hactive
  · refine ⟨fun _ => le_max_right .., ?_⟩
    unfold afterExchange secondUnfloored
    rw [max_le_iff, and_comm]
    exact ⟨fun h _ => h, fun h => h hactive⟩

/-- **The exchange of heat between a turf and its mixture** shares heat exactly where it is stable,
and a turf that radiates never falls below the floor and cools exactly where its mixture does not
give it more than it radiated. -/
theorem turf_exchange_iff {index : Nat} {node : StageHeatNode ℚ} {seconds temperature : ℚ}
    (hlinked : w.StagedLinked) (hstate : w.stageHeat = some state)
    (hnode : state.nodes[index]? = some node)
    (htemperature : state.temperatures[index]? = some temperature)
    (hvalid : validTurfHeatState node.heat = true) (hseconds : 0 < seconds)
    (hrun : run (computeStageHeatNode (D := ℚ) index seconds) w = (.ok (), v)) :
    (node.heat.adjacentToSpace = false → ∀ handle mixture, node.mixture = some handle →
      w.requireHandle handle = .ok mixture →
      (TurfShares v index handle mixture node.heat temperature ↔
        ExchangeStable w.heats mixture node.heat seconds temperature)) ∧
    (node.heat.adjacentToSpace = true →
      ∃ temperature', v.turfTemperature index = some temperature' ∧
        (27 / 10 ≤ temperature → 27 / 10 ≤ temperature') ∧
        (temperature' ≤ temperature ↔ WarmsLess w node seconds temperature
          (radiate (D := ℚ) w.realisticSpaceRadiation node.heat seconds temperature))) := by
  constructor
  · intro hcovered handle mixture hhandle hmixture
    have hshares := leaves_turfShares hlinked hstate hnode htemperature hhandle hmixture hvalid
      hseconds () v hrun
    dsimp only at hshares
    rwa [radiate_of_covered _ hcovered] at hshares
  · intro _
    exact leaves_radiating hstate hnode htemperature hvalid hseconds () v hrun

end Node

section Overshoot

/-- A turf at 500 K whose mixture of the same heat capacity is at 300 K, captured by a heat
stage. -/
def warmTurf (thermalConductivity : ℚ) : DogmosWorld ℚ :=
  System.run (step (D := ℚ)) (newWithCapacities 0 0 100000 8 4)
    [.installGases [tenfoldGas], .applyLifecycle [⟨.register, ⟨0, 1⟩⟩],
      .applyCommand (.setMoles ⟨0, 1⟩ ⟨0⟩ 10) fun _ => 0,
      .applyCommand (.setTemperature ⟨0, 1⟩ 300) fun _ => 0,
      .applyTurfLifecycle [.register ⟨0, 1⟩ (some ⟨0, 1⟩)],
      .applyTurfHeat [⟨⟨0, 1⟩, some ⟨500, thermalConductivity, 100, false⟩⟩],
      .beginFrontier 1 1 enoughMemory, .appendFrontier 1 0 [⟨0, 1⟩] enoughMemory, .commitFrontier 1,
      .processStageChunk ⟨.turfHeat, 1, 1, 1, 1 / 2⟩ 100 fun _ => false]

theorem warmTurf_reachable (thermalConductivity : ℚ) :
    Reachable (D := ℚ) (warmTurf thermalConductivity) :=
  System.reachable_run ⟨0, 0, 100000, 8, 4, rfl⟩ _

/-- The turf as a stage captured it. -/
structure Captured (w : DogmosWorld ℚ) (heat : TurfHeatState ℚ) (state : StageHeatState ℚ) :
    Prop where
  scratch : w.stageHeat = some state
  node : ∃ node, state.nodes[0]? = some node ∧ node.mixture = some ⟨0, 1⟩ ∧ node.heat = heat
  temperature : state.temperatures[0]? = some 500
  unstaged : state.stagedMixtures.isEmpty

deriving instance DecidableEq for TurfHeatState

theorem captured_of_map {w : DogmosWorld ℚ} {heat : TurfHeatState ℚ}
    (h : (w.stageHeat.map fun state => (state.nodes[0]?.map fun node => (node.mixture, node.heat),
      state.temperatures[0]?, state.stagedMixtures.isEmpty)) =
      some (some (some ⟨0, 1⟩, heat), some 500, true)) : ∃ state, Captured w heat state := by
  obtain ⟨state, hstate, heq⟩ := Option.map_eq_some_iff.1 h
  simp only [Prod.mk.injEq] at heq
  obtain ⟨hnode, htemperature, hunstaged⟩ := heq
  obtain ⟨node, hfound, hfields⟩ := Option.map_eq_some_iff.1 hnode
  rw [Prod.mk.injEq] at hfields
  exact ⟨state, hstate, ⟨node, hfound, hfields⟩, htemperature, hunstaged⟩

theorem warmTurf_runs (thermalConductivity : ℚ)
    (h : (Exec.run (computeStageHeatNode (D := ℚ) 0 (1 / 2)) (warmTurf thermalConductivity)).1.toBool =
      true) :
    ∃ v, Exec.run (computeStageHeatNode (D := ℚ) 0 (1 / 2)) (warmTurf thermalConductivity) =
      (.ok (), v) ∧ v = (Exec.run (computeStageHeatNode (D := ℚ) 0 (1 / 2))
        (warmTurf thermalConductivity)).2 := by
  obtain ⟨_, hrun⟩ := exists_of_toBool h
  exact ⟨_, hrun, rfl⟩

/-- With little conductivity the two share heat. -/
theorem turf_exchange_iff_warmTurf :
    ∃ v mixture, Exec.run (computeStageHeatNode (D := ℚ) 0 (1 / 2)) (warmTurf (1 / 2)) =
        (.ok (), v) ∧ (warmTurf (1 / 2)).requireHandle ⟨0, 1⟩ = .ok mixture ∧
      TurfShares v 0 ⟨0, 1⟩ mixture ⟨500, 1 / 2, 100, false⟩ 500 := by
  obtain ⟨v, hrun, -⟩ := warmTurf_runs (1 / 2) (by decide +kernel)
  obtain ⟨state, hstate, ⟨node, hnode, hlink, hheat⟩, htemperature, hunstaged⟩ :=
    @captured_of_map (warmTurf (1 / 2)) ⟨500, 1 / 2, 100, false⟩ (by decide +kernel)
  obtain ⟨mixture, hmixture, hstable⟩ := @exists_of_map _ (warmTurf (1 / 2)) ⟨0, 1⟩
    (fun mixture => decide (ExchangeStable (warmTurf (1 / 2)).heats mixture
      ⟨500, 1 / 2, 100, false⟩ (1 / 2) 500)) true (by decide +kernel)
  have hiff := turf_exchange_iff (stagedLinked_of_unstaged hstate hunstaged) hstate hnode
    htemperature (by rw [hheat]; decide +kernel) (by norm_num) hrun
  rw [hheat] at hiff
  exact ⟨v, mixture, hrun, hmixture,
    (hiff.1 rfl ⟨0, 1⟩ mixture hlink hmixture).2 (of_decide_eq_true hstable)⟩

/-- With much conductivity more than the whole difference is exchanged. -/
theorem turf_exchange_overshoots :
    ¬∀ (w v : DogmosWorld ℚ) (state : StageHeatState ℚ) (index : Nat) (node : StageHeatNode ℚ)
      (handle : MixtureHandle) (mixture : MixtureRecord ℚ) (seconds temperature : ℚ),
      Reachable (D := ℚ) w → w.StagedLinked → w.stageHeat = some state →
      state.nodes[index]? = some node → state.temperatures[index]? = some temperature →
      node.mixture = some handle → w.requireHandle handle = .ok mixture →
      mixture.immutable = false → validTurfHeatState node.heat = true →
      node.heat.adjacentToSpace = false → 0 < seconds →
      Exec.run (computeStageHeatNode (D := ℚ) index seconds) w = (.ok (), v) →
      TurfShares v index handle mixture node.heat temperature := by
  intro h
  obtain ⟨v, hrun, hv⟩ := warmTurf_runs 10 (by decide +kernel)
  obtain ⟨state, hstate, ⟨node, hnode, hlink, hheat⟩, htemperature, hunstaged⟩ :=
    @captured_of_map (warmTurf 10) ⟨500, 10, 100, false⟩ (by decide +kernel)
  obtain ⟨mixture, hmixture, hfields⟩ := @exists_of_map _ (warmTurf 10) ⟨0, 1⟩
    (fun mixture => (mixture.immutable, mixture.temperature)) (false, 300) (by decide +kernel)
  rw [Prod.mk.injEq] at hfields
  obtain ⟨gas, turf, -, hturf, hshared⟩ := h _ _ state 0 node ⟨0, 1⟩ mixture (1 / 2) 500
    (warmTurf_reachable 10) (stagedLinked_of_unstaged hstate hunstaged) hstate hnode htemperature
    hlink hmixture hfields.1 (by rw [hheat]; decide +kernel) (by rw [hheat]) (by norm_num) hrun
  have hleft : v.turfTemperature 0 = some 100 := by
    rw [hv]
    decide +kernel
  rw [hleft] at hturf
  cases hturf
  have hmem := hshared.second
  rw [hfields.2, Set.mem_uIcc] at hmem
  norm_num at hmem

end Overshoot

end Dogmos
