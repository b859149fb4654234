import Dogmos.Exact.Matter
import Dogmos.Lib.Extended

/-!
# Commands that move heat

* `AdjustHeat` divides by the heat capacity before it looks at the result, so it is read over the
  numbers with infinities: without heat capacity, heat of either sign gives an infinity, and no
  heat gives no number, which the floor turns into the minimum temperature
  (`adjustedTemperature`).
* `AdjustMolesTemperature` mixes in gas at the given temperature, or at the floor.
* `TemperatureShare` and `TemperatureShareNonGas` exchange heat through the harmonic capacity of
  the two sides (`exchanged`), and limit each result to the floor by itself.
-/

namespace Dogmos

open DogmosWorld

/-! ## AdjustHeat -/

section AdjustHeat

open Extended

theorem extended_minimumTemperatureK : (minimumTemperatureK : Extended) = num (27 / 10) := by
  rw [minimumTemperatureK, num_ofScientific]
  norm_num

/-- The temperature `AdjustHeat` computes, if it is finite. -/
def adjustedTemperature (capacity temperature heat : ℚ) : Option ℚ :=
  if capacity = 0 then (if 0 < heat then none else some (27 / 10))
  else some (max ((capacity * temperature + heat) / capacity) (27 / 10))

/-- Without heat capacity, only heat that is added gives no finite result. -/
theorem fmax_adjusted (capacity temperature heat : ℚ) :
    let adjusted : Extended :=
      fmax ((num capacity * num temperature + num heat) / num capacity) minimumTemperatureK
    match adjustedTemperature capacity temperature heat with
    | none => FloatFormat.isFinite adjusted = false
    | some q => adjusted = num q := by
  dsimp only
  rw [extended_minimumTemperatureK, num_mul, num_add, adjustedTemperature]
  by_cases hcapacity : capacity = 0
  · subst hcapacity
    rw [num_div_zero, zero_mul, zero_add, signed, if_pos rfl]
    rcases lt_trichotomy heat 0 with hneg | hzero | hpos
    · rw [if_neg (not_lt.2 hneg.le), if_pos hneg, if_neg (not_lt.2 hneg.le), fmax_negInf]
    · subst hzero
      rw [if_neg (lt_irrefl _), if_neg (lt_irrefl _), if_neg (lt_irrefl _), fmax_nan]
    · rw [if_pos hpos, if_pos hpos, fmax_posInf]
      exact posInf_isFinite
  · rw [num_div _ _ hcapacity, num_fmax, if_neg hcapacity]

/-- The temperature `AdjustHeat` leaves. -/
def heatedTemperature (immutable : Bool) (capacity temperature heat : ℚ) : ℚ :=
  if immutable then temperature
  else (adjustedTemperature capacity temperature heat).getD temperature

variable {w v : DogmosWorld Extended} {handle : MixtureHandle} {f : MixtureRecord Extended}

/-- A temperature that is written only when it is another. -/
theorem mutated_changeIf_temperature {temperature : ℚ} (adjusted : ℚ)
    (htemperature : f.temperature = num temperature) (hmutable : f.immutable = false) :
    (mutated (changeIf (!(f.immutable || !FloatFormat.isFinite (num adjusted) ||
      f.temperature == num adjusted)) f { f with temperature := num adjusted })).temperature =
        num adjusted ∧
      (adjusted = temperature → mutated (changeIf (!(f.immutable ||
        !FloatFormat.isFinite (num adjusted) || f.temperature == num adjusted)) f
          { f with temperature := num adjusted }) = f) := by
  rw [htemperature, hmutable, num_isFinite, num_beq]
  by_cases hsame : temperature = adjusted
  · subst hsame
    simp [mutated, changeIf, htemperature]
  · have hne : ¬adjusted = temperature := fun h => hsame h.symm
    simp [mutated, changeIf, hsame, hne]

/-- What `AdjustHeat` leaves: a record that is another only when its temperature is. -/
theorem leaves_adjustHeat {capacity temperature heat : ℚ}
    (hfound : w.requireHandle handle = .ok f) (htemperature : f.temperature = num temperature)
    (hcapacity : w.heatCapacity f = .ok (num capacity)) :
    Leaves w (adjustHeat handle (num heat)) fun _ v =>
      ∃ f', v.requireHandle handle = .ok f' ∧
        f'.temperature = num (heatedTemperature f.immutable capacity temperature heat) ∧
        (heatedTemperature f.immutable capacity temperature heat = temperature → f' = f) := by
  unfold adjustHeat
  refine leaves_check_bind fun _ _ => leaves_check_bind fun before hbefore => ?_
  rw [hfound] at hbefore
  cases hbefore
  refine leaves_check_bind fun found hcapacityFound => ?_
  rw [hcapacity] at hcapacityFound
  cases hcapacityFound
  have hadjusted := fmax_adjusted capacity temperature heat
  rw [← htemperature] at hadjusted
  dsimp only at hadjusted ⊢
  generalize fmax ((num capacity * f.temperature + num heat) / num capacity)
    minimumTemperatureK = adjusted at hadjusted ⊢
  refine leaves_bind_pure (leaves_mono (leaves_of_triple triple_mutateMixture_effect) ?_)
  rintro _ v ⟨record, -, heffect⟩
  have hrecord := heffect.found
  rw [hfound] at hrecord
  cases hrecord
  refine ⟨_, heffect.left, ?_⟩
  unfold heatedTemperature
  cases hmutable : f.immutable with
  | true => simp [mutated, changeIf, htemperature]
  | false =>
    rcases hresult : adjustedTemperature capacity temperature heat with _ | q
    · rw [hresult] at hadjusted
      simp [mutated, changeIf, hadjusted, htemperature]
    · rw [hresult] at hadjusted
      rw [hadjusted]
      have hwritten := mutated_changeIf_temperature q htemperature hmutable
      rw [hmutable] at hwritten
      exact hwritten

/-- `AdjustHeat` moves heat the right way: heat that is added does not cool, heat that is taken
away does not warm, and no heat changes nothing. -/
def HeatMoves (v : DogmosWorld Extended) (handle : MixtureHandle) (f : MixtureRecord Extended)
    (temperature heat : ℚ) : Prop :=
  ∃ f' temperature', v.requireHandle handle = .ok f' ∧ f'.temperature = num temperature' ∧
    (0 ≤ heat → temperature ≤ temperature') ∧ (heat ≤ 0 → temperature' ≤ temperature) ∧
    (heat = 0 → f' = f)

/-- When `AdjustHeat` does: a mixture that is not below the floor has to have heat capacity, or to
be at the floor, when no heat is added or taken away. -/
def HeatWelcome (immutable : Bool) (capacity temperature heat : ℚ) : Prop :=
  immutable = true ∨ 0 < heat ∨ heat < 0 ∧ 27 / 10 ≤ temperature ∨
    heat = 0 ∧ (0 < capacity ∧ 27 / 10 ≤ temperature ∨ temperature = 27 / 10)

theorem heatedTemperature_iff {immutable : Bool} {capacity temperature heat : ℚ}
    (hcapacity : 0 ≤ capacity) :
    ((0 ≤ heat → temperature ≤ heatedTemperature immutable capacity temperature heat) ∧
      (heat ≤ 0 → heatedTemperature immutable capacity temperature heat ≤ temperature) ∧
      (heat = 0 → heatedTemperature immutable capacity temperature heat = temperature)) ↔
        HeatWelcome immutable capacity temperature heat := by
  unfold heatedTemperature HeatWelcome adjustedTemperature
  cases immutable with
  | true => simp
  | false =>
    simp only [Bool.false_eq_true, if_false, false_or]
    rcases hcapacity.eq_or_lt with hzero | hpos
    · rw [if_pos hzero.symm, ← hzero]
      rcases lt_trichotomy heat 0 with hneg | hnone | hadded
      · rw [if_neg (not_lt.2 hneg.le), Option.getD_some]
        simp [hneg, hneg.le, hneg.ne, not_le.2 hneg, not_lt.2 hneg.le]
      · subst hnone
        rw [if_neg (lt_irrefl _), Option.getD_some]
        simp only [le_refl, lt_irrefl, false_and, false_or, true_and, forall_const]
        exact ⟨fun h => h.2.2.symm, fun h => ⟨h.le, h.ge, h.symm⟩⟩
      · rw [if_pos hadded, Option.getD_none]
        simp [hadded]
    · have hquotient : (capacity * temperature + heat) / capacity =
          temperature + heat / capacity := by
        field_simp
      rw [if_neg hpos.ne', Option.getD_some, hquotient]
      rcases lt_trichotomy heat 0 with hneg | hnone | hadded
      · have hless : heat / capacity < 0 := div_neg_of_neg_of_pos hneg hpos
        simp [hneg, hneg.le, hneg.ne, not_le.2 hneg, not_lt.2 hneg.le, hless.le]
      · subst hnone
        rw [zero_div, add_zero]
        simp only [le_refl, lt_irrefl, false_and, false_or, true_and, forall_const, hpos,
          le_max_left, max_le_iff, max_eq_left_iff]
        constructor
        · intro h
          exact .inl h.1
        · rintro (h | h)
          · exact ⟨h, h⟩
          · exact ⟨h.ge, h.ge⟩
      · have hmore : 0 < heat / capacity := div_pos hadded hpos
        simp [hadded, hadded.le, hadded.ne', not_le.2 hadded, hmore.le]

/-- `AdjustHeat` on a mixture with finite numbers. -/
theorem heatMoves_iff {capacity temperature heat : ℚ} (hcapacity : 0 ≤ capacity)
    (htemperature : f.temperature = num temperature)
    (h : ∃ f', v.requireHandle handle = .ok f' ∧
      f'.temperature = num (heatedTemperature f.immutable capacity temperature heat) ∧
      (heatedTemperature f.immutable capacity temperature heat = temperature → f' = f)) :
    HeatMoves v handle f temperature heat ↔
      HeatWelcome f.immutable capacity temperature heat := by
  obtain ⟨f', hleft, hheated, hsame⟩ := h
  rw [← heatedTemperature_iff hcapacity]
  constructor
  · rintro ⟨after, temperature', hafter, htemperature', hadded, htaken, hnone⟩
    rw [hleft] at hafter
    cases hafter
    rw [hheated, num_inj] at htemperature'
    subst htemperature'
    refine ⟨hadded, htaken, fun hzero => ?_⟩
    rw [hnone hzero, htemperature, num_inj] at hheated
    exact hheated.symm
  · rintro ⟨hadded, htaken, hnone⟩
    exact ⟨f', _, hleft, hheated, hadded, htaken, fun hzero => hsame (hnone hzero)⟩

end AdjustHeat

/-! ## AdjustMolesTemperature -/

section AdjustMoles

variable {w v : DogmosWorld ℚ} {handle : MixtureHandle} {f : MixtureRecord ℚ}

theorem requireNonNegative_eq_ok {amount : ℚ} {error : WorldError}
    (h : requireNonNegative amount error = .ok ()) : 0 ≤ amount := by
  unfold requireNonNegative at h
  by_contra hneg
  rw [if_pos (by simpa using hneg)] at h
  cases h

theorem specificHeatAt_nonneg (hheats : HeatsNonneg w.heats) (index : Nat) :
    0 ≤ w.specificHeatAt index := by
  have hat := hheats index
  unfold heatAt heats at hat
  unfold specificHeatAt
  rwa [exact_zero]

/-- The floor keeps what is between a temperature and one at the floor or above. -/
theorem max_floor_mem {x y z floor : ℚ} (hz : z ∈ Set.uIcc x y) (hy : floor ≤ y) :
    max z floor ∈ Set.uIcc x y := by
  rw [Set.mem_uIcc] at hz ⊢
  rcases le_total z floor with h | h
  · rw [max_eq_right h]
    rcases hz with hz | hz
    · exact .inl ⟨hz.1.trans h, hy⟩
    · exact .inr ⟨hz.1.trans h, hy.trans (hz.1.trans hz.2)⟩
  · rwa [max_eq_left h]

theorem leaves_adjustMolesTemperature {gas : GasId} {amount temperature : ℚ}
    (hheats : HeatsNonneg w.heats) (hf : 0 ≤ f.minimumHeatCapacity)
    (hfound : w.requireHandle handle = .ok f) :
    Leaves w (adjustMolesTemperature (D := ℚ) handle gas amount temperature) fun _ v =>
      ∃ f', v.requireHandle handle = .ok f' ∧
        f'.temperature ∈ Set.uIcc f.temperature (max temperature (27 / 10)) := by
  unfold adjustMolesTemperature
  refine leaves_check_bind fun _ hamount => leaves_check_bind fun _ _ => ?_
  have hamount := requireNonNegative_eq_ok hamount
  refine leaves_ite (fun _ => leaves_pure ⟨f, hfound, Set.left_mem_uIcc⟩) fun _ => ?_
  refine leaves_check_bind fun index _ => leaves_check_bind fun heat hheat => ?_
  cases hheat
  refine leaves_check_bind fun before hbefore => ?_
  rw [hfound] at hbefore
  cases hbefore
  refine leaves_check_bind fun capacity hcapacity => ?_
  rw [heatCapacity_eq_ok hcapacity]
  refine leaves_bind_pure (leaves_mono (leaves_of_triple triple_mutateMixture_effect) ?_)
  rintro _ v ⟨record, -, heffect⟩
  have hrecord := heffect.found
  rw [hfound] at hrecord
  cases hrecord
  refine ⟨_, heffect.left, ?_⟩
  cases himmutable : f.immutable with
  | true => simp [mutated, changeIf]
  | false =>
    simp only [mutated, changeIf, Bool.not_false, if_true, Exact.fmax_eq,
      exact_minimumTemperatureK, exact_minimumHeatCapacity]
    refine max_floor_mem ?_ (le_max_right ..)
    split
    · next hcombined =>
      exact Mixing.mean_mem (recordHeatCapacity_nonneg hf w.heats)
        (mul_nonneg hamount (specificHeatAt_nonneg hheats index)) (by linarith)
    · exact Set.left_mem_uIcc

end AdjustMoles

/-! ## Exchanging heat -/

theorem harmonicHeatCapacity_eq {a b : ℚ} (ha : 0 < a) (hb : 0 < b) :
    harmonicHeatCapacity a b = a * b / (a + b) := by
  have hab : 0 < a + b := add_pos ha hb
  unfold harmonicHeatCapacity
  rw [exact_one]
  by_cases h : a < b
  · rw [if_pos h]
    field_simp
    ring
  · rw [if_neg h]
    field_simp

/-- Whether two sides exchange heat. -/
def HeatFlows (a b x y : ℚ) : Prop := 1 / 2 < |x - y| ∧ 3 / 10000 < a ∧ 3 / 10000 < b

/-- The first temperature after an exchange, before the floor. -/
def firstUnfloored (k a b x y : ℚ) : ℚ := x - k * (x - y) * harmonicHeatCapacity a b / a

/-- The second temperature after an exchange, before the floor. -/
def secondUnfloored (k a b x y : ℚ) : ℚ := y + k * (x - y) * harmonicHeatCapacity a b / b

instance (a b x y : ℚ) : Decidable (HeatFlows a b x y) :=
  inferInstanceAs (Decidable (_ ∧ _))

/-- The temperatures after an exchange: each side that is not immutable, at the floor at least. -/
def exchanged (firstImmutable secondImmutable : Bool) (k a b x y : ℚ) : ℚ × ℚ :=
  if HeatFlows a b x y then
    (if firstImmutable then x else max (firstUnfloored k a b x y) (27 / 10),
      if secondImmutable then y else max (secondUnfloored k a b x y) (27 / 10))
  else (x, y)

/-- Two temperatures are left as an exchange of heat leaves them: the energy of two mutable sides
stays, both temperatures are between the two there were, and neither passes the other. -/
structure HeatShared (bothMutable : Prop) (a b x y x' y' : ℚ) : Prop where
  energy : bothMutable → a * x' + b * y' = a * x + b * y
  first : x' ∈ Set.uIcc x y
  second : y' ∈ Set.uIcc x y
  le : x ≤ y → x' ≤ y'
  ge : y ≤ x → y' ≤ x'

/-- When the floor does not get in the way of an exchange: nothing is exchanged, nothing is
written, the only side that is written can be at the floor, or neither result is below it. -/
def FloorClear (firstImmutable secondImmutable : Bool) (k a b x y : ℚ) : Prop :=
  ¬HeatFlows a b x y ∨
    (firstImmutable = true ∧ secondImmutable = true) ∨
    (firstImmutable ≠ secondImmutable ∧ 27 / 10 ≤ max x y) ∨
    (firstImmutable = false ∧ secondImmutable = false ∧ 27 / 10 ≤ firstUnfloored k a b x y ∧
      27 / 10 ≤ secondUnfloored k a b x y)

section Exchange

variable {k a b x y : ℚ}

theorem unfloored_exchange (ha : 0 < a) (hb : 0 < b) (hk : 0 ≤ k) (hk' : k ≤ 1) :
    Mixing.Exchange a b x y (firstUnfloored k a b x y) (secondUnfloored k a b x y) := by
  have hshare := Mixing.exchange_of_share (x := x) (y := y) ha hb hk hk'
  have hab : a + b ≠ 0 := (add_pos ha hb).ne'
  have hfirst : x + k * (b / (a + b)) * (y - x) = firstUnfloored k a b x y := by
    rw [firstUnfloored, harmonicHeatCapacity_eq ha hb]
    field_simp
    ring
  have hsecond : y + k * (a / (a + b)) * (x - y) = secondUnfloored k a b x y := by
    rw [secondUnfloored, harmonicHeatCapacity_eq ha hb]
    field_simp
  rwa [hfirst, hsecond] at hshare

/-- The floor on one of two sides, when the other does not change. -/
theorem heatShared_of_one {z : ℚ} (hz : z ∈ Set.uIcc x y) (hmax : 27 / 10 ≤ max x y) :
    max z (27 / 10) ∈ Set.uIcc x y ∧ (x ≤ y → x ≤ max z (27 / 10)) ∧
      (y ≤ x → max z (27 / 10) ≤ x) := by
  rcases le_total x y with h | h
  · rw [Set.uIcc_of_le h, Set.mem_Icc] at hz ⊢
    rw [max_eq_right h] at hmax
    refine ⟨⟨le_max_of_le_left hz.1, max_le hz.2 hmax⟩, fun _ => le_max_of_le_left hz.1,
      fun h' => max_le ?_ ?_⟩
    · linarith
    · linarith
  · rw [Set.uIcc_of_ge h, Set.mem_Icc] at hz ⊢
    rw [max_eq_left h] at hmax
    refine ⟨⟨le_max_of_le_left hz.1, max_le hz.2 hmax⟩, fun h' => le_max_of_le_left ?_,
      fun _ => max_le hz.2 hmax⟩
    linarith

theorem heatShared_exchanged_iff (firstImmutable secondImmutable : Bool) (ha : 0 < a) (hb : 0 < b)
    (hk : 0 ≤ k) (hk' : k ≤ 1) :
    HeatShared (firstImmutable = false ∧ secondImmutable = false) a b x y
      (exchanged firstImmutable secondImmutable k a b x y).1
      (exchanged firstImmutable secondImmutable k a b x y).2 ↔
        FloorClear firstImmutable secondImmutable k a b x y := by
  have hrefl : ∀ p, HeatShared p a b x y x y := fun p =>
    ⟨fun _ => rfl, Set.left_mem_uIcc, Set.right_mem_uIcc, id, id⟩
  unfold exchanged FloorClear
  by_cases hflows : HeatFlows a b x y
  · rw [if_pos hflows]
    have hexchange := unfloored_exchange (x := x) (y := y) ha hb hk hk'
    generalize firstUnfloored k a b x y = u at hexchange ⊢
    generalize secondUnfloored k a b x y = v at hexchange ⊢
    cases firstImmutable with
    | true =>
      cases secondImmutable with
      | true => exact iff_of_true (hrefl _) (.inr (.inl ⟨rfl, rfl⟩))
      | false =>
        simp only [hflows, not_true_eq_false, if_true, Bool.false_eq_true, if_false, false_or,
          and_false, ne_eq, Bool.true_eq_false, not_false_eq_true, true_and, false_and, or_false]
        constructor
        · exact fun h => (le_max_right v _).trans h.second.2
        · intro hmax
          obtain ⟨hmem, hle, hge⟩ := heatShared_of_one hexchange.second hmax
          exact ⟨False.elim, Set.left_mem_uIcc, hmem, hle, hge⟩
    | false =>
      cases secondImmutable with
      | true =>
        simp only [hflows, not_true_eq_false, if_true, Bool.false_eq_true, if_false, false_or,
          and_true, ne_eq, not_false_eq_true, true_and, false_and, or_false, and_false,
          Bool.true_eq_false]
        constructor
        · exact fun h => (le_max_right u _).trans h.first.2
        · intro hmax
          have hfirst := hexchange.first
          rw [Set.uIcc_comm] at hfirst
          rw [max_comm] at hmax
          obtain ⟨hmem, hle, hge⟩ := heatShared_of_one hfirst hmax
          rw [Set.uIcc_comm] at hmem
          exact ⟨False.elim, hmem, Set.right_mem_uIcc, hge, hle⟩
      | false =>
        simp only [hflows, not_true_eq_false, Bool.false_eq_true, if_false, false_or, and_self,
          ne_eq, true_and, false_and]
        constructor
        · intro h
          have henergy := h.energy trivial
          rw [← hexchange.sum] at henergy
          have hu : 0 ≤ a * (max u (27 / 10) - u) :=
            mul_nonneg ha.le (sub_nonneg.2 (le_max_left ..))
          have hv : 0 ≤ b * (max v (27 / 10) - v) :=
            mul_nonneg hb.le (sub_nonneg.2 (le_max_left ..))
          have hu' : a * (max u (27 / 10) - u) = 0 := by linarith
          have hv' : b * (max v (27 / 10) - v) = 0 := by linarith
          rw [mul_eq_zero, sub_eq_zero, max_eq_left_iff] at hu' hv'
          exact ⟨hu'.resolve_left ha.ne', hv'.resolve_left hb.ne'⟩
        · rintro ⟨hu, hv⟩
          rw [max_eq_left hu, max_eq_left hv]
          exact ⟨fun _ => hexchange.sum, hexchange.first, hexchange.second, hexchange.le,
            hexchange.ge⟩
  · rw [if_neg hflows]
    exact iff_of_true (hrefl _) (.inl hflows)

end Exchange

/-! ## The commands that exchange heat -/

section Commands

variable {w v : DogmosWorld ℚ} {handle first second : MixtureHandle} {f s : MixtureRecord ℚ}

theorem exact_minimumTemperatureDelta : (minimumTemperatureDeltaToConsider : ℚ) = 1 / 2 := by
  norm_num [minimumTemperatureDeltaToConsider]

/-- A temperature is written only when it is another. -/
theorem mutated_changeIf_bne (f : MixtureRecord ℚ) (temperature : ℚ) :
    (mutated (changeIf (f.temperature != temperature) f { f with temperature })).temperature =
      temperature := by
  by_cases hsame : f.temperature = temperature
  · rw [changeIf, hsame]
    simp [mutated, hsame]
  · simp [mutated, changeIf, hsame]

/-- One temperature is written and the other returned, whatever they come from. -/
theorem leaves_writeTemperature (hfound : w.requireHandle handle = .ok f)
    (temperatures computed : ℚ × ℚ) (h : temperatures = computed) :
    Leaves w (do
      let _ ← mutateMixture handle fun mixture =>
        changeIf (mixture.temperature != temperatures.1) mixture
          { mixture with temperature := temperatures.1 }
      pure (CommandResult.scalar temperatures.2)) fun result v =>
        result = .scalar computed.2 ∧ ∃ f', v.requireHandle handle = .ok f' ∧
          f'.temperature = computed.1 := by
  subst h
  refine leaves_bind_pure (leaves_mono (leaves_of_triple triple_mutateMixture_effect) ?_)
  rintro _ v ⟨record, -, heffect⟩
  have hrecord := heffect.found
  rw [hfound] at hrecord
  cases hrecord
  exact ⟨rfl, _, heffect.left, mutated_changeIf_bne f _⟩

theorem leaves_temperatureShareNonGas {k sharerTemperature sharerHeatCapacity : ℚ}
    (hfound : w.requireHandle handle = .ok f) :
    Leaves w (temperatureShareNonGas handle k sharerTemperature sharerHeatCapacity) fun result v =>
      result = .scalar (exchanged f.immutable false k (recordHeatCapacity f w.heats)
        sharerHeatCapacity f.temperature sharerTemperature).2 ∧
      ∃ f', v.requireHandle handle = .ok f' ∧ f'.temperature = (exchanged f.immutable false k
        (recordHeatCapacity f w.heats) sharerHeatCapacity f.temperature sharerTemperature).1 := by
  unfold temperatureShareNonGas
  dsimp only
  refine leaves_check_bind fun _ _ => leaves_check_bind fun _ _ => leaves_check_bind fun _ _ => ?_
  refine leaves_check_bind fun before hbefore => ?_
  rw [hfound] at hbefore
  cases hbefore
  refine leaves_ite (fun hdelta => leaves_check_bind fun capacity hcapacity => ?_) fun hdelta => ?_
  · rw [heatCapacity_eq_ok hcapacity]
    rw [exact_minimumTemperatureDelta] at hdelta
    refine leaves_ite (fun hcapacities => ?_) fun hcapacities => ?_
    · rw [pure_bind]
      refine leaves_writeTemperature hfound (_, _) _ ?_
      rw [exact_minimumHeatCapacity] at hcapacities
      have hflows : HeatFlows (recordHeatCapacity f w.heats) sharerHeatCapacity f.temperature
        sharerTemperature := ⟨hdelta, hcapacities⟩
      rw [exchanged, if_pos hflows, exact_minimumTemperatureK, if_neg Bool.false_ne_true]
      rfl
    · rw [pure_bind]
      refine leaves_writeTemperature hfound (_, _) _ ?_
      rw [exact_minimumHeatCapacity] at hcapacities
      rw [exchanged, if_neg fun h => hcapacities h.2]
  · rw [exact_minimumTemperatureDelta] at hdelta
    rw [pure_bind]
    refine leaves_writeTemperature hfound (_, _) _ ?_
    rw [exchanged, if_neg fun h => hdelta h.1]

theorem leaves_commitPairTemperatures {x y : ℚ} (hfirst : w.requireHandle first = .ok f)
    (hsecond : w.requireHandle second = .ok s) :
    Leaves w (commitPairTemperatures first second x y (x != f.temperature) (y != s.temperature))
      fun _ v => PairLeft w v first second f s { f with temperature := x }
        { s with temperature := y } := by
  have hsame : ∀ (r : MixtureRecord ℚ) (z : ℚ), (z != r.temperature) = false →
      { r with temperature := z } = r := by
    intro r z h
    rw [bne_eq_false_iff_eq.1 h]
  unfold commitPairTemperatures
  generalize hfirstChanged : (x != f.temperature) = firstChanged
  generalize hsecondChanged : (y != s.temperature) = secondChanged
  -- the checks of the revisions do not change what is written
  have hwrite : Leaves w (do
      if !firstChanged && !secondChanged then
        return (0 : UInt32)
      let firstRecord ← Exec.check fun w => w.requireHandle first
      let secondRecord ← Exec.check fun w => w.requireHandle second
      let warmed := fun (record : MixtureRecord ℚ) (temperature : ℚ) =>
        MixtureRecord.revised { record with temperature }
      writePair first second
        (if firstChanged then some (warmed firstRecord x) else none)
        (if secondChanged then some (warmed secondRecord y) else none)
      return (if firstChanged then 1 else 0) + (if secondChanged then (1 : UInt32) else 0))
      fun _ v => PairLeft w v first second f s { f with temperature := x }
        { s with temperature := y } := by
    refine leaves_ite (fun hunchanged => leaves_pure ?_) fun _ => ?_
    · rw [Bool.and_eq_true, Bool.not_eq_true', Bool.not_eq_true'] at hunchanged
      rw [hsame f x (hfirstChanged.trans hunchanged.1), hsame s y (hsecondChanged.trans hunchanged.2)]
      exact pairLeft_refl hfirst hsecond
    · refine leaves_check_bind fun f₁ hf₁ => leaves_check_bind fun s₁ hs₁ => ?_
      rw [hfirst] at hf₁
      rw [hsecond] at hs₁
      cases hf₁
      cases hs₁
      exact leaves_bind_pure (leaves_writeRevised hfirst hsecond
        (fun h => hsame f x (hfirstChanged.trans h)) fun h => hsame s y (hsecondChanged.trans h))
  refine leaves_ite (fun _ => leaves_check_bind fun _ _ => leaves_check_bind fun _ _ => ?_)
    fun _ => ?_
  all_goals
    exact leaves_ite (fun _ => leaves_check_bind fun _ _ => leaves_check_bind fun _ _ => hwrite)
      fun _ => hwrite

theorem leaves_temperatureShare {k : ℚ} (hfirst : w.requireHandle first = .ok f)
    (hsecond : w.requireHandle second = .ok s) :
    Leaves w (temperatureShare first second k) fun _ v => PairLeft w v first second f s
      { f with temperature := (exchanged f.immutable s.immutable k (recordHeatCapacity f w.heats)
        (recordHeatCapacity s w.heats) f.temperature s.temperature).1 }
      { s with temperature := (exchanged f.immutable s.immutable k (recordHeatCapacity f w.heats)
        (recordHeatCapacity s w.heats) f.temperature s.temperature).2 } := by
  have hwrite : ∀ temperatures computed : ℚ × ℚ, temperatures = computed → Leaves w (do
      let _ ← commitPairTemperatures first second temperatures.1 temperatures.2
        (temperatures.1 != f.temperature) (temperatures.2 != s.temperature)
      pure (CommandResult.scalar temperatures.2)) fun _ v => PairLeft w v first second f s
        { f with temperature := computed.1 } { s with temperature := computed.2 } := by
    rintro temperatures _ rfl
    exact leaves_bind_pure (leaves_commitPairTemperatures hfirst hsecond)
  unfold temperatureShare
  dsimp only
  refine leaves_ite (fun _ => leaves_throw _) fun _ => leaves_check_bind fun _ _ => ?_
  refine leaves_check_bind fun f₁ hf₁ => leaves_check_bind fun s₁ hs₁ => ?_
  rw [hfirst] at hf₁
  rw [hsecond] at hs₁
  cases hf₁
  cases hs₁
  refine leaves_ite (fun hdelta => leaves_check_bind fun a ha => leaves_check_bind fun b hb => ?_)
    fun hdelta => ?_
  · rw [heatCapacity_eq_ok ha, heatCapacity_eq_ok hb]
    rw [exact_minimumTemperatureDelta] at hdelta
    refine leaves_ite (fun hcapacities => ?_) fun hcapacities => ?_
    · rw [pure_bind]
      refine hwrite (_, _) _ ?_
      rw [exact_minimumHeatCapacity] at hcapacities
      have hflows : HeatFlows (recordHeatCapacity f w.heats) (recordHeatCapacity s w.heats)
        f.temperature s.temperature := ⟨hdelta, hcapacities⟩
      rw [exchanged, if_pos hflows, exact_minimumTemperatureK]
      rfl
    · rw [pure_bind]
      refine hwrite (_, _) _ ?_
      rw [exact_minimumHeatCapacity] at hcapacities
      rw [exchanged, if_neg fun h => hcapacities h.2]
  · rw [exact_minimumTemperatureDelta] at hdelta
    rw [pure_bind]
    refine hwrite (_, _) _ ?_
    rw [exchanged, if_neg fun h => hdelta h.1]

end Commands

/-! ## The commands together -/

/-- A mixture ends between its temperature and one that is mixed in. -/
def WarmedTowards (v : DogmosWorld ℚ) (handle : MixtureHandle) (f : MixtureRecord ℚ)
    (temperature : ℚ) : Prop :=
  ∃ f', v.requireHandle handle = .ok f' ∧ f'.temperature ∈ Set.uIcc f.temperature temperature

/-- Two mixtures share heat. -/
def MixturesShare (w v : DogmosWorld ℚ) (first second : MixtureHandle) (f s : MixtureRecord ℚ) :
    Prop :=
  ∃ f' s', v.requireHandle first = .ok f' ∧ v.requireHandle second = .ok s' ∧
    HeatShared (f.immutable = false ∧ s.immutable = false) (recordHeatCapacity f w.heats)
      (recordHeatCapacity s w.heats) f.temperature s.temperature f'.temperature s'.temperature

/-- A mixture shares heat with something else, whose temperature is the result. -/
def SharesOutside (w v : DogmosWorld ℚ) (handle : MixtureHandle) (f : MixtureRecord ℚ)
    (result : CommandResult ℚ) (sharerTemperature sharerHeatCapacity : ℚ) : Prop :=
  ∃ f' returned, v.requireHandle handle = .ok f' ∧ result = .scalar returned ∧
    HeatShared (f.immutable = false) (recordHeatCapacity f w.heats) sharerHeatCapacity
      f.temperature sharerTemperature f'.temperature returned

/-- Thermal commands move energy the right way exactly where no mixture without heat capacity is
given no heat and no exchange of heat meets the floor. -/
theorem thermal_commands_iff (handle : MixtureHandle) :
    (∀ (w v : DogmosWorld Extended) (f : MixtureRecord Extended)
      (capacity temperature heat : ℚ) (clock : Nat → Extended) (result : CommandResult Extended),
      w.requireHandle handle = .ok f → f.temperature = .num temperature →
      w.heatCapacity f = .ok (.num capacity) → 0 ≤ capacity →
      Exec.run (applyCommand (D := Extended) (.adjustHeat handle (.num heat)) clock) w =
        (.ok result, v) →
      (HeatMoves v handle f temperature heat ↔
        HeatWelcome f.immutable capacity temperature heat)) ∧
    (∀ (w v : DogmosWorld ℚ) (f : MixtureRecord ℚ) (gas : GasId)
      (amount temperature : ℚ) (clock : Nat → ℚ) (result : CommandResult ℚ),
      w.Equipped → f.Physical → w.requireHandle handle = .ok f →
      Exec.run (applyCommand (D := ℚ) (.adjustMolesTemperature handle gas amount temperature)
        clock) w = (.ok result, v) →
      WarmedTowards v handle f (max temperature (27 / 10))) ∧
    (∀ (w v : DogmosWorld ℚ) (other : MixtureHandle) (f s : MixtureRecord ℚ) (k : ℚ)
      (clock : Nat → ℚ) (result : CommandResult ℚ), 0 ≤ k → k ≤ 1 →
      0 < recordHeatCapacity f w.heats → 0 < recordHeatCapacity s w.heats →
      w.requireHandle handle = .ok f → w.requireHandle other = .ok s →
      Exec.run (applyCommand (D := ℚ) (.temperatureShare handle other k) clock) w =
        (.ok result, v) →
      (MixturesShare w v handle other f s ↔ FloorClear f.immutable s.immutable k
        (recordHeatCapacity f w.heats) (recordHeatCapacity s w.heats) f.temperature
          s.temperature)) ∧
    ∀ (w v : DogmosWorld ℚ) (f : MixtureRecord ℚ)
      (k sharerTemperature sharerHeatCapacity : ℚ) (clock : Nat → ℚ) (result : CommandResult ℚ),
      0 ≤ k → k ≤ 1 → 0 < recordHeatCapacity f w.heats → 0 < sharerHeatCapacity →
      w.requireHandle handle = .ok f →
      Exec.run (applyCommand (D := ℚ) (.temperatureShareNonGas handle k sharerTemperature
        sharerHeatCapacity) clock) w = (.ok result, v) →
      (SharesOutside w v handle f result sharerTemperature sharerHeatCapacity ↔
        FloorClear f.immutable false k (recordHeatCapacity f w.heats) sharerHeatCapacity
          f.temperature sharerTemperature) := by
  refine ⟨?_, ?_, ?_, ?_⟩
  · intro w v f capacity temperature heat clock result hfound htemperature hcapacity
      hnonneg hrun
    have hwrites : Leaves w (writeCommand (D := Extended) (.adjustHeat handle (.num heat))) _ :=
      leaves_adjustHeat hfound htemperature hcapacity
    exact heatMoves_iff hnonneg htemperature
      (leaves_applyCommand (fun _ h => by cases h) rfl hwrites result v hrun)
  · intro w v f gas amount temperature clock result hequipped hf hfound hrun
    have hwrites : Leaves w (writeCommand (D := ℚ)
        (.adjustMolesTemperature handle gas amount temperature)) _ :=
      leaves_adjustMolesTemperature hequipped.heats_nonneg hf.minimumHeatCapacity hfound
    exact leaves_applyCommand (fun _ h => by cases h) rfl hwrites result v hrun
  · intro w v other f s k clock result hk hk' ha hb hfirst hsecond hrun
    have hwrites : Leaves w (writeCommand (D := ℚ) (.temperatureShare handle other k)) _ :=
      leaves_temperatureShare hfirst hsecond
    obtain ⟨firstRevision, secondRevision, heffect⟩ :=
      leaves_applyCommand (fun _ h => by cases h) rfl hwrites result v hrun
    rw [← heatShared_exchanged_iff f.immutable s.immutable ha hb hk hk']
    constructor
    · rintro ⟨f', s', hf', hs', hshared⟩
      rw [heffect.leftFirst] at hf'
      rw [heffect.leftSecond] at hs'
      cases hf'
      cases hs'
      exact hshared
    · exact fun hshared => ⟨_, _, heffect.leftFirst, heffect.leftSecond, hshared⟩
  · intro w v f k sharerTemperature sharerHeatCapacity clock result hk hk' ha hb hfound hrun
    have hwrites : Leaves w (writeCommand (D := ℚ) (.temperatureShareNonGas handle k
        sharerTemperature sharerHeatCapacity)) _ := leaves_temperatureShareNonGas hfound
    obtain ⟨hresult, after, hafter, htemperature⟩ :=
      leaves_applyCommand (fun _ h => by cases h) rfl hwrites result v hrun
    have hiff := heatShared_exchanged_iff (x := f.temperature) (y := sharerTemperature) f.immutable
      false ha hb hk hk'
    rw [← htemperature, and_iff_left rfl] at hiff
    rw [← hiff]
    constructor
    · rintro ⟨f', returned, hf', hreturned, hshared⟩
      rw [hafter] at hf'
      cases hf'
      rw [hresult, CommandResult.scalar.injEq] at hreturned
      rw [hreturned]
      exact hshared
    · exact fun hshared => ⟨after, _, hafter, hresult, hshared⟩

/-! ## A mixture without heat capacity -/

/-- An empty mixture at 300 K. -/
def emptyWorld : DogmosWorld Extended :=
  System.run (step (D := Extended)) (newWithCapacities 0 0 100000 8 4)
    [.installGases [{ id := ⟨0⟩, key := "o2", name := "Oxygen", flags := 0, specificHeat := .num 10
                      fusionPower := .num 0, molesVisible := none, enthalpy := .num 0
                      fireRadiationReleased := .num 0, fireRole := .none, fireProducts := none }],
      .applyLifecycle [⟨.register, ⟨0, 1⟩⟩],
      .applyCommand (.setTemperature ⟨0, 1⟩ (.num 300)) fun _ => .num 0]

theorem emptyWorld_mixture : ∃ f, emptyWorld.requireHandle ⟨0, 1⟩ = .ok f ∧
    f.temperature = .num 300 ∧ emptyWorld.heatCapacity f = .ok (.num 0) := by
  have hread : (emptyWorld.requireHandle ⟨0, 1⟩).toOption.map (fun f =>
      (f.temperature, (emptyWorld.heatCapacity f).toOption)) =
        some (.num 300, some (.num 0)) := by decide +kernel
  rcases hfound : emptyWorld.requireHandle ⟨0, 1⟩ with error | f
  · rw [hfound] at hread
    cases hread
  · rw [hfound, Except.toOption, Option.map_some, Option.some.injEq, Prod.mk.injEq] at hread
    obtain ⟨htemperature, hcapacity⟩ := hread
    refine ⟨f, rfl, htemperature, ?_⟩
    rcases hresult : emptyWorld.heatCapacity f with error | capacity
    · rw [hresult] at hcapacity
      cases hcapacity
    · rw [hresult, Except.toOption, Option.some.injEq] at hcapacity
      rw [hcapacity]

/-- Two mixtures that hold gas, at 300 K and at 700 K. -/
def warmPair : DogmosWorld ℚ :=
  System.run (step (D := ℚ)) evenPair
    [.applyCommand (.setMoles ⟨1, 1⟩ ⟨0⟩ 30) fun _ => 0,
      .applyCommand (.setTemperature ⟨1, 1⟩ 700) fun _ => 0]

theorem warmPair_heat : ∃ f s, warmPair.requireHandle ⟨0, 1⟩ = .ok f ∧
    warmPair.requireHandle ⟨1, 1⟩ = .ok s ∧ recordHeatCapacity f warmPair.heats = 100 ∧
    recordHeatCapacity s warmPair.heats = 300 ∧ f.temperature = 300 ∧ s.temperature = 700 := by
  obtain ⟨f, hfirst, hf⟩ : ∃ f, warmPair.requireHandle ⟨0, 1⟩ = .ok f ∧
      (recordHeatCapacity f warmPair.heats, f.temperature) = (100, 300) :=
    exists_of_map (fun f => (recordHeatCapacity f warmPair.heats, f.temperature))
      (by decide +kernel)
  obtain ⟨s, hsecond, hs⟩ : ∃ s, warmPair.requireHandle ⟨1, 1⟩ = .ok s ∧
      (recordHeatCapacity s warmPair.heats, s.temperature) = (300, 700) :=
    exists_of_map (fun s => (recordHeatCapacity s warmPair.heats, s.temperature))
      (by decide +kernel)
  rw [Prod.mk.injEq] at hf hs
  exact ⟨f, s, hfirst, hsecond, hf.1, hs.1, hf.2, hs.2⟩

/-- The floor is clear of two temperatures that are not below it. -/
theorem floorClear_of_warm {firstImmutable secondImmutable : Bool} {k a b x y : ℚ} (ha : 0 < a)
    (hb : 0 < b) (hk : 0 ≤ k) (hk' : k ≤ 1) (hx : 27 / 10 ≤ x) (hy : 27 / 10 ≤ y) :
    FloorClear firstImmutable secondImmutable k a b x y := by
  have hexchange := unfloored_exchange (x := x) (y := y) ha hb hk hk'
  have hwarm : ∀ z ∈ Set.uIcc x y, 27 / 10 ≤ z := fun z hz => (le_min hx hy).trans hz.1
  refine .inr ?_
  cases firstImmutable with
  | true =>
    cases secondImmutable with
    | true => exact .inl ⟨rfl, rfl⟩
    | false => exact .inr (.inl ⟨by decide, le_max_of_le_left hx⟩)
  | false =>
    cases secondImmutable with
    | true => exact .inr (.inl ⟨by decide, le_max_of_le_left hx⟩)
    | false =>
      exact .inr (.inr ⟨rfl, rfl, hwarm _ hexchange.first, hwarm _ hexchange.second⟩)

theorem thermal_commands_iff_warmPair :
    (∃ v f, HeatMoves v ⟨0, 1⟩ f 300 5) ∧ (∃ v f, WarmedTowards v ⟨0, 1⟩ f (max 400 (27 / 10))) ∧
    (∃ v f s, f.temperature = 300 ∧ s.temperature = 700 ∧
      MixturesShare warmPair v ⟨0, 1⟩ ⟨1, 1⟩ f s) ∧
    ∃ v f result, f.temperature = 300 ∧ SharesOutside warmPair v ⟨0, 1⟩ f result 500 50 := by
  obtain ⟨hheat, hmoles, hshare, houtside⟩ := thermal_commands_iff ⟨0, 1⟩
  obtain ⟨f, s, hfirst, hsecond, hfHeat, hsHeat, hfTemperature, hsTemperature⟩ := warmPair_heat
  have ha : 0 < recordHeatCapacity f warmPair.heats := by rw [hfHeat]; norm_num
  have hb : 0 < recordHeatCapacity s warmPair.heats := by rw [hsHeat]; norm_num
  have hx : 27 / 10 ≤ f.temperature := by rw [hfTemperature]; norm_num
  have hy : 27 / 10 ≤ s.temperature := by rw [hsTemperature]; norm_num
  have hk : (0 : ℚ) ≤ 1 / 2 := by norm_num
  have hk' : (1 / 2 : ℚ) ≤ 1 := by norm_num
  refine ⟨?_, ?_, ?_, ?_⟩
  · obtain ⟨empty, hempty, htemperature, hcapacity⟩ := emptyWorld_mixture
    obtain ⟨result, hrun⟩ : ∃ result, Exec.run (applyCommand (D := Extended)
        (.adjustHeat ⟨0, 1⟩ (.num 5)) fun _ => .num 0) emptyWorld = (.ok result, _) :=
      exists_of_toBool (by decide +kernel)
    exact ⟨_, empty, (hheat emptyWorld _ empty 0 300 5 _ result hempty htemperature hcapacity
      le_rfl hrun).2 (.inr (.inl (by norm_num)))⟩
  · obtain ⟨f, s, hfirst, -, hf, -⟩ := evenPair_amounts
    obtain ⟨result, hrun⟩ : ∃ result, Exec.run (applyCommand (D := ℚ)
        (.adjustMolesTemperature ⟨0, 1⟩ ⟨0⟩ 5 400) fun _ => 0) evenPair = (.ok result, _) :=
      exists_of_toBool (by decide +kernel)
    exact ⟨_, f, hmoles evenPair _ f ⟨0⟩ 5 400 _ result
      (equipped_of_reachable evenPair_reachable) hf hfirst hrun⟩
  · obtain ⟨result, hrun⟩ : ∃ result, Exec.run (applyCommand (D := ℚ)
        (.temperatureShare ⟨0, 1⟩ ⟨1, 1⟩ (1 / 2)) fun _ => 0) warmPair = (.ok result, _) :=
      exists_of_toBool (by decide +kernel)
    exact ⟨_, f, s, hfTemperature, hsTemperature, (hshare warmPair _ ⟨1, 1⟩ f s (1 / 2) _ result hk
      hk' ha hb hfirst hsecond hrun).2 (floorClear_of_warm ha hb hk hk' hx hy)⟩
  · obtain ⟨result, hrun⟩ : ∃ result, Exec.run (applyCommand (D := ℚ)
        (.temperatureShareNonGas ⟨0, 1⟩ (1 / 2) 500 50) fun _ => 0) warmPair = (.ok result, _) :=
      exists_of_toBool (by decide +kernel)
    have hsharer : (0 : ℚ) < 50 := by norm_num
    exact ⟨_, f, result, hfTemperature, (houtside warmPair _ f (1 / 2) 500 50 _ result hk hk' ha
      hsharer hfirst hrun).2 (floorClear_of_warm ha hsharer hk hk' hx (by norm_num))⟩

/-- No heat cools an empty mixture at 300 K to the floor. -/
theorem no_heat_cools : ¬∀ (w v : DogmosWorld Extended) (handle : MixtureHandle)
    (f : MixtureRecord Extended) (capacity temperature heat : ℚ) (clock : Nat → Extended)
    (result : CommandResult Extended), Reachable (D := Extended) w →
    w.requireHandle handle = .ok f → f.temperature = .num temperature →
    w.heatCapacity f = .ok (.num capacity) → 0 ≤ capacity →
    Exec.run (applyCommand (D := Extended) (.adjustHeat handle (.num heat)) clock) w =
      (.ok result, v) →
    HeatMoves v handle f temperature heat := by
  intro h
  obtain ⟨f, hfound, htemperature, hcapacity⟩ := emptyWorld_mixture
  obtain ⟨result, hrun⟩ : ∃ result, Exec.run (applyCommand (D := Extended)
      (.adjustHeat ⟨0, 1⟩ (.num 0)) fun _ => .num 0) emptyWorld = (.ok result, _) :=
    exists_of_toBool (by decide +kernel)
  obtain ⟨f', temperature', hafter, htemperature', hadded, -, -⟩ := h emptyWorld _ ⟨0, 1⟩ f 0 300 0 _
    result (System.reachable_run ⟨0, 0, 100000, 8, 4, rfl⟩ _) hfound htemperature hcapacity le_rfl
    hrun
  have hcooled : ((Exec.run (applyCommand (D := Extended) (.adjustHeat ⟨0, 1⟩ (.num 0))
      fun _ => .num 0) emptyWorld).2.requireHandle ⟨0, 1⟩).toOption.map
        MixtureRecord.temperature = some (.num (27 / 10)) := by decide +kernel
  rw [hafter, Except.toOption, Option.map_some, htemperature', Option.some.injEq,
    Extended.num_inj] at hcooled
  have hwarm := hadded le_rfl
  rw [hcooled] at hwarm
  norm_num at hwarm

end Dogmos
