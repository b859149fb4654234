import Dogmos.Exact.Fires

/-!
# Native reactions in exact arithmetic

The four fires of the service, each with its quotient as a parameter: with the quotient of exact
arithmetic it is the reaction, and with any value for a quotient by zero it is the same reaction.

* `plasmaFire_burns`, `combustFuel_burns`, `freonFire_burns` — each fire balances, whatever limit is
  met.
* `native_reactions_balance` — so does each native reaction, and none divides by zero or fails.
-/

namespace Dogmos

variable {registry : GasMetadataRegistry ℚ} {gases : Gases ℚ}

section Fire

variable {list : List (GasMetadata ℚ)} {temperature minimum : ℚ} {fuel : String}

/-! ### Quotients -/

section Quotients

variable (quot : ℚ → ℚ → ℚ) (zero : ℚ → ℚ)

/-- `quantize` with a quotient. -/
def quantizeBy (amount : ℚ) : ℚ :=
  FloatFormat.round (quot amount molarAccuracy) * molarAccuracy

/-- The four values of a reaction event. -/
def eventValues (first second third fourth : ℚ) : Vector ℚ 4 := #v[first, second, third, fourth]

/-- The temperature a fire leaves. -/
def firedTemperature (registry : GasMetadataRegistry ℚ) (gases gases' : Gases ℚ)
    (temperature minimum heat : ℚ) : ℚ :=
  if minimumHeatCapacity < reactionHeatCapacity gases' minimum registry then
    quot (temperature * reactionHeatCapacity gases minimum registry + heat)
      (reactionHeatCapacity gases' minimum registry)
  else temperature

theorem quantizeBy_div : quantizeBy (· / ·) = quantize := rfl

theorem quantizeBy_quotient : quantizeBy (Exact.quotient zero) = quantize := by
  funext amount
  rw [quantizeBy, Exact.quotient_of_ne (by rw [exact_molarAccuracy]; norm_num)]
  rfl

theorem firedTemperature_quotient (registry : GasMetadataRegistry ℚ) (gases gases' : Gases ℚ)
    (temperature minimum heat : ℚ) :
    firedTemperature (Exact.quotient zero) registry gases gases' temperature minimum heat =
      firedTemperature (· / ·) registry gases gases' temperature minimum heat := by
  unfold firedTemperature
  split
  · next h =>
    rw [exact_minimumHeatCapacity] at h
    exact Exact.quotient_of_ne (lt_trans (by norm_num) h).ne'
  · rfl

/-- The energy of a fire whose temperature is recomputed. -/
theorem firedTemperature_energy (registry : GasMetadataRegistry ℚ) (gases gases' : Gases ℚ)
    (temperature minimum heat : ℚ)
    (h : 3 / 10000 < reactionHeatCapacity gases' minimum registry) :
    firedTemperature (· / ·) registry gases gases' temperature minimum heat *
        reactionHeatCapacity gases' minimum registry =
      temperature * reactionHeatCapacity gases minimum registry + heat := by
  rw [firedTemperature, exact_minimumHeatCapacity, if_pos h, div_mul_cancel₀]
  exact (lt_trans (by norm_num) h).ne'

theorem firedTemperature_cold (registry : GasMetadataRegistry ℚ) (gases gases' : Gases ℚ)
    (temperature minimum heat : ℚ)
    (h : reactionHeatCapacity gases' minimum registry ≤ 3 / 10000) :
    firedTemperature (· / ·) registry gases gases' temperature minimum heat = temperature := by
  rw [firedTemperature, exact_minimumHeatCapacity, if_neg (not_lt.2 h)]

end Quotients

/-! ### Plasma -/

section Plasma

variable (quot : ℚ → ℚ → ℚ) (zero : ℚ → ℚ)

/-- How far the temperature of a plasma fire is on its way to the upper temperature. -/
def plasmaScale (temperature : ℚ) : ℚ :=
  if 1643.15 < temperature then 1.0 else quot (temperature - 373.15) (1643.15 - 373.15)

/-- The burn rate of a plasma fire before its limits, and whether it is super-saturated. -/
def plasmaRate (scale oxygenMoles plasmaMoles : ℚ) : ℚ × Bool :=
  if 96.0 ≤ quot oxygenMoles plasmaMoles then (quot plasmaMoles 9.0 * scale, true)
  else if 10.0 ≤ quot oxygenMoles plasmaMoles then (quot plasmaMoles 9.0 * scale, false)
  else (quot (quot oxygenMoles 10.0) 9.0 * scale, false)

/-- What a plasma fire makes of each mole it burns. -/
def plasmaProducts (superSaturation : Bool) : List (String × ℚ) :=
  if superSaturation then [("tritium", 1)] else [("co2", 3 / 4), ("water_vapor", 1 / 4)]

/-- A plasma fire whose gases all have an index. -/
def plasmaBody (registry : GasMetadataRegistry ℚ) (gases : Gases ℚ) (temperature minimum : ℚ) :
    Except NativeReactionError (Option (NativeOutcome ℚ)) :=
  let oxygen := gases.at (indexOf registry "o2")
  let plasma := gases.at (indexOf registry "plasma")
  let scale := plasmaScale quot temperature
  let rate := plasmaRate quot scale oxygen plasma
  if scale ≤ 0.0 ∨ plasma ≤ 0.0 then .ok none
  else if rate.1 < minimumHeatCapacity then .ok none
  else
    let burned := fmin (fmin rate.1 plasma) (quot oxygen (1.4 - scale))
    let plasmaLeft := quantizeBy quot (plasma - burned)
    let oxygenLeft := quantizeBy quot (oxygen - burned * (1.4 - scale))
    let after := burnedGases gases (indexOf registry "plasma") (indexOf registry "o2") plasmaLeft
      oxygenLeft
    let after :=
      if rate.2 then after [(indexOf registry "tritium", burned)]
      else after
        [(indexOf registry "co2", burned * 0.75), (indexOf registry "water_vapor", burned * 0.25)]
    let temperature' :=
      firedTemperature quot registry gases after temperature minimum (3.0e6 * burned)
    .ok (some ⟨after, temperature',
      eventValues (burned * (1.0 + (1.4 - scale))) temperature' 0.0 0.0⟩)

variable (hheld : Holds registry ["o2", "plasma", "co2", "tritium", "water_vapor"])
include hheld

theorem plasmaFire_dividing (gases : Gases ℚ) (temperature minimum : ℚ) :
    @plasmaFire ℚ (Exact.dividing zero) gases temperature minimum registry =
      plasmaBody (Exact.quotient zero) registry gases temperature minimum := by
  have hkey : ∀ key ∈ ["o2", "plasma", "co2", "tritium", "water_vapor"],
      reactionGasIndex registry key = .ok (indexOf registry key) := fun key h => hheld.index h
  unfold plasmaFire
  rw [hkey "o2" (by simp), hkey "plasma" (by simp), hkey "co2" (by simp), hkey "tritium" (by simp),
    hkey "water_vapor" (by simp)]
  dsimp only [Exact.dividing]
  rfl

theorem plasmaFire_eq (gases : Gases ℚ) (temperature minimum : ℚ) :
    plasmaFire gases temperature minimum registry =
      plasmaBody (· / ·) registry gases temperature minimum := by
  have hkey : ∀ key ∈ ["o2", "plasma", "co2", "tritium", "water_vapor"],
      reactionGasIndex registry key = .ok (indexOf registry key) := fun key h => hheld.index h
  unfold plasmaFire
  rw [hkey "o2" (by simp), hkey "plasma" (by simp), hkey "co2" (by simp), hkey "tritium" (by simp),
    hkey "water_vapor" (by simp)]
  rfl

omit hheld

theorem plasmaScale_quotient :
    plasmaScale (Exact.quotient zero) = plasmaScale (· / ·) := by
  funext temperature
  rw [plasmaScale, Exact.quotient_of_ne (by norm_num)]
  rfl

theorem plasmaRate_quotient (scale oxygen : ℚ) {plasma : ℚ} (h : plasma ≠ 0) :
    plasmaRate (Exact.quotient zero) scale oxygen plasma =
      plasmaRate (· / ·) scale oxygen plasma := by
  have hdelta (a : ℚ) : Exact.quotient zero a 9.0 = a / 9.0 := Exact.quotient_of_ne (by norm_num)
  have hfull (a : ℚ) : Exact.quotient zero a 10.0 = a / 10.0 := Exact.quotient_of_ne (by norm_num)
  simp only [plasmaRate, Exact.quotient_of_ne h, hdelta, hfull]

theorem plasmaScale_le_one (temperature : ℚ) : plasmaScale (· / ·) temperature ≤ 1 := by
  unfold plasmaScale
  split
  · rw [exact_one]
  · next hle => rw [div_le_one (by norm_num)]; linarith

/-- A plasma fire divides by zero nowhere. -/
theorem plasmaBody_quotient (gases : Gases ℚ) (temperature minimum : ℚ) :
    plasmaBody (Exact.quotient zero) registry gases temperature minimum =
      plasmaBody (· / ·) registry gases temperature minimum := by
  have hscale := plasmaScale_le_one temperature
  simp only [plasmaBody, plasmaScale_quotient, quantizeBy_quotient, quantizeBy_div,
    firedTemperature_quotient]
  generalize plasmaScale (· / ·) temperature = scale at hscale ⊢
  by_cases hcold : scale ≤ 0.0 ∨ gases.at (indexOf registry "plasma") ≤ 0.0
  · rw [if_pos hcold, if_pos hcold]
  have hplasma : gases.at (indexOf registry "plasma") ≠ 0 := by
    rw [exact_zero, not_or, not_le, not_le] at hcold
    exact hcold.2.ne'
  have hratio : 1.4 - scale ≠ 0 := by
    have hpos : (0 : ℚ) < 1.4 - scale := by norm_num; linarith
    exact hpos.ne'
  rw [if_neg hcold, if_neg hcold, plasmaRate_quotient zero _ _ hplasma,
    Exact.quotient_of_ne hratio]

/-- A fire that burns at all has oxygen. -/
theorem oxygen_pos_of_plasmaRate {scale oxygen plasma : ℚ} (hoxygen : 0 ≤ oxygen)
    (hrate : 3 / 10000 ≤ (plasmaRate (· / ·) scale oxygen plasma).1) : 0 < oxygen := by
  refine lt_of_le_of_ne hoxygen fun hzero => ?_
  rw [← hzero, plasmaRate, zero_div, if_neg (by norm_num), if_neg (by norm_num)] at hrate
  norm_num at hrate

end Plasma

/-- A fire that burns the smallest of its limits burns what there is. -/
theorem burned_limits {rate fuel oxygen ratio : ℚ} (hrate : 0 < rate) (hfuel : 0 < fuel)
    (hoxygen : 0 < oxygen) (hratio : 0 < ratio) :
    0 < fmin (fmin rate fuel) (oxygen / ratio) ∧
      fmin (fmin rate fuel) (oxygen / ratio) ≤ fuel ∧
      fmin (fmin rate fuel) (oxygen / ratio) * ratio ≤ oxygen := by
  rw [Exact.fmin_eq, Exact.fmin_eq]
  refine ⟨lt_min (lt_min hrate hfuel) (div_pos hoxygen hratio),
    (min_le_left _ _).trans (min_le_right _ _), ?_⟩
  exact (le_div_iff₀ hratio).1 (min_le_right _ _)

/-- What a plasma fire leaves and reports. -/
def PlasmaBalance (registry : GasMetadataRegistry ℚ) (gases : Gases ℚ) (temperature minimum : ℚ)
    (outcome : NativeOutcome ℚ) : Prop :=
  ∃ burned, Burns registry gases temperature minimum outcome "plasma"
    (plasmaProducts (plasmaRate (· / ·) (plasmaScale (· / ·) temperature)
      (amountOf registry gases "o2") (amountOf registry gases "plasma")).2)
    burned (1.4 - plasmaScale (· / ·) temperature) 3000000 (1 / 20000) False ∧
  outcome.values = eventValues (burned * (1 + (1.4 - plasmaScale (· / ·) temperature)))
    outcome.temperature 0 0

/-- **Plasma fire** burns to tritium where oxygen abounds, and to carbon dioxide and water. -/
theorem plasmaFire_burns (htable : GasMetadataRegistry.tryNew list = .ok registry)
    (hheld : Holds registry ["o2", "plasma", "co2", "tritium", "water_vapor"])
    (hgases : ∀ index, 0 ≤ gases.at index) (temperature minimum : ℚ) :
    Yields (plasmaFire gases temperature minimum registry) fun outcome =>
      PlasmaBalance registry gases temperature minimum outcome := by
  have hplasmaAt : amountOf registry gases "plasma" = gases.at (indexOf registry "plasma") :=
    hheld.amountOf (by simp) gases
  have hoxygenAt : amountOf registry gases "o2" = gases.at (indexOf registry "o2") :=
    hheld.amountOf (by simp) gases
  have hheldAll : ∀ superSaturation, Holds registry
      ("plasma" :: "o2" :: (plasmaProducts superSaturation).map Prod.fst) := by
    intro superSaturation key hkey
    refine hheld key ?_
    cases superSaturation <;> simp [plasmaProducts] at hkey ⊢ <;> tauto
  have hnodup : ∀ superSaturation,
      ("plasma" :: "o2" :: (plasmaProducts superSaturation).map Prod.fst).Nodup := by decide
  rw [plasmaFire_eq hheld]
  unfold plasmaBody PlasmaBalance
  dsimp only
  rw [← hplasmaAt, ← hoxygenAt, quantizeBy_div]
  have hscale := plasmaScale_le_one temperature
  generalize plasmaScale (· / ·) temperature = scale at hscale ⊢
  by_cases hcold : scale ≤ 0.0 ∨ amountOf registry gases "plasma" ≤ 0.0
  · rw [if_pos hcold]
    exact .inl rfl
  rw [if_neg hcold]
  by_cases hslow : (plasmaRate (· / ·) scale (amountOf registry gases "o2")
      (amountOf registry gases "plasma")).1 < minimumHeatCapacity
  · rw [if_pos hslow]
    exact .inl rfl
  rw [if_neg hslow]
  rw [exact_minimumHeatCapacity, not_lt] at hslow
  rw [exact_zero, not_or, not_le, not_le] at hcold
  have hoxygen := oxygen_pos_of_plasmaRate (hoxygenAt ▸ hgases _) hslow
  have hratio : (0 : ℚ) < 1.4 - scale := by norm_num; linarith
  obtain ⟨hburned, hfuelLe, hoxygenLe⟩ := burned_limits
    (lt_of_lt_of_le (by norm_num) hslow) hcold.2 hoxygen hratio
  generalize plasmaRate (· / ·) scale (amountOf registry gases "o2")
    (amountOf registry gases "plasma") = rate at *
  obtain ⟨rate, superSaturation⟩ := rate
  dsimp only at *
  generalize fmin (fmin rate (amountOf registry gases "plasma"))
    (amountOf registry gases "o2" / (1.4 - scale)) = burned at *
  refine .inr ⟨_, rfl, burned, burns_of_writes htable
    (hheldAll superSaturation) (hnodup superSaturation) hgases ?_ ?_ hcold.2 hratio hburned
    hfuelLe hoxygenLe (quantize_error _) (quantize_error _)
    (quantize_nonneg (sub_nonneg.2 hfuelLe)) (quantize_nonneg (sub_nonneg.2 hoxygenLe))
    (fun h => .inl ?_) (firedTemperature_cold _ _ _ _ _ _), ?_⟩
  · cases superSaturation <;> norm_num [plasmaProducts]
  · cases superSaturation
    · rw [if_neg Bool.false_ne_true, show (0.75 : ℚ) = 3 / 4 by norm_num,
        show (0.25 : ℚ) = 1 / 4 by norm_num]
      rfl
    · simp [plasmaProducts]
  · rw [firedTemperature_energy _ _ _ _ _ _ h]
    ring
  · rw [exact_one, exact_zero]

/-! ### Hydrogen and tritium -/

section Combustion

variable (quot : ℚ → ℚ → ℚ) (zero : ℚ → ℚ)

/-- The fuel that burns in a hydrogen or tritium fire. -/
def combustedFuel (fuelMoles oxygenMoles : ℚ) : ℚ :=
  fmin (fmin (fmin (quot fuelMoles 2.0) (quot oxygenMoles (2.0 * 10.0))) fuelMoles)
    (quot oxygenMoles 0.5)

/-- A fire of hydrogen or tritium whose gases all have an index. -/
def combustBody (fuel : String) (report : ℚ → ℚ → ℚ → Vector ℚ 4)
    (registry : GasMetadataRegistry ℚ) (gases : Gases ℚ) (temperature minimum : ℚ) :
    Except NativeReactionError (Option (NativeOutcome ℚ)) :=
  let oxygenMoles := gases.at (indexOf registry "o2")
  let fuelMoles := gases.at (indexOf registry fuel)
  let burned := combustedFuel quot fuelMoles oxygenMoles
  if burned ≤ 0.0 ∨ fuelMoles - burned < 0.0 ∨ oxygenMoles - burned * 0.5 < 0.0 then .ok none
  else
    let burnt := gases.put (indexOf registry fuel) (fmax (fuelMoles - burned) 0.0)
    let after := burnedGases gases (indexOf registry fuel) (indexOf registry "o2")
      (fmax (fuelMoles - burned) 0.0)
      (fmax (burnt.at (indexOf registry "o2") - burned * 0.5) 0.0)
      [(indexOf registry "water_vapor", burned)]
    let temperature' :=
      firedTemperature quot registry gases after temperature minimum (2.8e6 * burned)
    .ok (some ⟨after, temperature', report burned (2.8e6 * burned) temperature'⟩)

section Keys

variable (hheld : Holds registry ["o2", fuel, "water_vapor"])
include hheld

theorem combustFuel_dividing (report : ℚ → ℚ → ℚ → Vector ℚ 4) (gases : Gases ℚ)
    (temperature minimum : ℚ) :
    @combustFuel ℚ (Exact.dividing zero) fuel report gases temperature minimum registry =
      combustBody (Exact.quotient zero) fuel report registry gases temperature minimum := by
  have hkey : ∀ key ∈ ["o2", fuel, "water_vapor"],
      reactionGasIndex registry key = .ok (indexOf registry key) := fun key h => hheld.index h
  unfold combustFuel
  rw [hkey "o2" (by simp), hkey fuel (by simp), hkey "water_vapor" (by simp)]
  dsimp only [Exact.dividing]
  rfl

theorem combustFuel_eq (report : ℚ → ℚ → ℚ → Vector ℚ 4) (gases : Gases ℚ)
    (temperature minimum : ℚ) :
    combustFuel fuel report gases temperature minimum registry =
      combustBody (· / ·) fuel report registry gases temperature minimum := by
  have hkey : ∀ key ∈ ["o2", fuel, "water_vapor"],
      reactionGasIndex registry key = .ok (indexOf registry key) := fun key h => hheld.index h
  unfold combustFuel
  rw [hkey "o2" (by simp), hkey fuel (by simp), hkey "water_vapor" (by simp)]
  rfl

end Keys

theorem combustedFuel_quotient (fuelMoles oxygenMoles : ℚ) :
    combustedFuel (Exact.quotient zero) fuelMoles oxygenMoles =
      combustedFuel (· / ·) fuelMoles oxygenMoles := by
  have hdelta (a : ℚ) : Exact.quotient zero a 2.0 = a / 2.0 :=
    Exact.quotient_of_ne (by norm_num)
  have hfull (a : ℚ) : Exact.quotient zero a (2.0 * 10.0) = a / (2.0 * 10.0) :=
    Exact.quotient_of_ne (by norm_num)
  have hhalf (a : ℚ) : Exact.quotient zero a 0.5 = a / 0.5 := Exact.quotient_of_ne (by norm_num)
  simp only [combustedFuel, hdelta, hfull, hhalf]

/-- A fire of hydrogen or tritium divides by zero nowhere. -/
theorem combustBody_quotient (fuel : String) (report : ℚ → ℚ → ℚ → Vector ℚ 4) (gases : Gases ℚ)
    (temperature minimum : ℚ) :
    combustBody (Exact.quotient zero) fuel report registry gases temperature minimum =
      combustBody (· / ·) fuel report registry gases temperature minimum := by
  simp only [combustBody, firedTemperature_quotient]
  rw [combustedFuel_quotient]

end Combustion

/-- What a hydrogen or tritium fire leaves and reports. -/
def CombustBalance (fuel : String) (report : ℚ → ℚ → ℚ → Vector ℚ 4)
    (registry : GasMetadataRegistry ℚ) (gases : Gases ℚ) (temperature minimum : ℚ)
    (outcome : NativeOutcome ℚ) : Prop :=
  ∃ burned, Burns registry gases temperature minimum outcome fuel [("water_vapor", 1)] burned
    (1 / 2) 2800000 0 False ∧
  outcome.values = report burned (2800000 * burned) outcome.temperature

/-- **Hydrogen and tritium fire** burn to water, and nothing is rounded. -/
theorem combustFuel_burns (htable : GasMetadataRegistry.tryNew list = .ok registry)
    (hfuel : [fuel, "o2", "water_vapor"].Nodup) (hheld : Holds registry ["o2", fuel, "water_vapor"])
    (hgases : ∀ index, 0 ≤ gases.at index) (report : ℚ → ℚ → ℚ → Vector ℚ 4)
    (temperature minimum : ℚ) :
    Yields (combustFuel fuel report gases temperature minimum registry) fun outcome =>
      CombustBalance fuel report registry gases temperature minimum outcome := by
  have hfuelAt : amountOf registry gases fuel = gases.at (indexOf registry fuel) :=
    hheld.amountOf (by simp) gases
  have hoxygenAt : amountOf registry gases "o2" = gases.at (indexOf registry "o2") :=
    hheld.amountOf (by simp) gases
  have hheldAll : Holds registry
      (fuel :: "o2" :: [(("water_vapor", 1) : String × ℚ)].map Prod.fst) := by
    intro key hkey
    refine hheld key ?_
    simp at hkey ⊢
    tauto
  have hne : indexOf registry "o2" ≠ indexOf registry fuel := by
    have hnodup := hheldAll.nodup htable hfuel
    simp only [List.map_cons, List.nodup_cons, List.mem_cons, not_or] at hnodup
    exact Ne.symm hnodup.1.1
  have hput : ∀ left, Gases.at (gases.put (indexOf registry fuel) left) (indexOf registry "o2") =
      gases.at (indexOf registry "o2") := by
    intro left
    rw [Gases.at_put, if_neg fun h => hne h.1]
  rw [combustFuel_eq hheld]
  unfold combustBody
  dsimp only
  rw [hput, ← hfuelAt, ← hoxygenAt]
  generalize combustedFuel (· / ·) (amountOf registry gases fuel)
    (amountOf registry gases "o2") = burned
  by_cases hnone : burned ≤ 0.0 ∨ amountOf registry gases fuel - burned < 0.0 ∨
      amountOf registry gases "o2" - burned * 0.5 < 0.0
  · rw [if_pos hnone]
    exact .inl rfl
  rw [if_neg hnone]
  rw [exact_zero, show (0.5 : ℚ) = 1 / 2 by norm_num, not_or, not_or, not_le, not_lt,
    not_lt] at hnone
  obtain ⟨hburned, hfuelLe, hoxygenLe⟩ := hnone
  have hheat : (2.8e6 : ℚ) = 2800000 := by norm_num
  rw [exact_zero, show (0.5 : ℚ) = 1 / 2 by norm_num, Exact.fmax_eq, Exact.fmax_eq,
    max_eq_left hfuelLe, max_eq_left hoxygenLe, hheat]
  refine .inr ⟨_, rfl, burned, burns_of_writes htable hheldAll hfuel hgases ?_ ?_ ?_ ?_ hburned
    (by linarith) (by linarith) ?_ ?_ hfuelLe hoxygenLe (fun h => .inl ?_)
    (firedTemperature_cold _ _ _ _ _ _), rfl⟩
  · simp
  · simp
  · linarith
  · norm_num
  · rw [sub_self, abs_zero]
  · rw [sub_self, abs_zero]
  · rw [firedTemperature_energy _ _ _ _ _ _ h]
    ring

/-! ### Freon -/

section Freon

variable (quot : ℚ → ℚ → ℚ) (zero : ℚ → ℚ)

/-- How cold a freon fire is: more of the freon burns the colder it is, down to a step. -/
def freonScale (temperature : ℚ) : ℚ :=
  if temperature < 20.0 then 0.0
  else if temperature < 60.0 then 0.5
  else quot (283.0 - temperature) (283.0 - 20.0)

/-- The burn rate of a freon fire before its limits. -/
def freonRate (scale oxygenMoles freonMoles : ℚ) : ℚ :=
  if oxygenMoles < freonMoles * 10.0 then quot (quot oxygenMoles 10.0) 4.0 * scale
  else quot freonMoles 4.0 * scale

/-- The temperature a freon fire leaves: no lower than the floor. -/
def frozenTemperature (registry : GasMetadataRegistry ℚ) (gases gases' : Gases ℚ)
    (temperature minimum heat : ℚ) : ℚ :=
  if minimumHeatCapacity < reactionHeatCapacity gases' minimum registry then
    fmax (quot (temperature * reactionHeatCapacity gases minimum registry - heat)
      (reactionHeatCapacity gases' minimum registry)) minimumTemperatureK
  else temperature

/-- A freon fire whose gases all have an index. -/
def freonBody (registry : GasMetadataRegistry ℚ) (gases : Gases ℚ) (temperature minimum : ℚ) :
    Except NativeReactionError (Option (NativeOutcome ℚ)) :=
  let oxygen := gases.at (indexOf registry "o2")
  let freon := gases.at (indexOf registry "freon")
  let scale := freonScale quot temperature
  if scale ≤ 0.0 ∨ freon ≤ 0.0 then .ok none
  else if freonRate quot scale oxygen freon < minimumHeatCapacity then .ok none
  else
    let burned := fmin (fmin (freonRate quot scale oxygen freon) freon) (quot oxygen (1.4 - scale))
    let after := burnedGases gases (indexOf registry "freon") (indexOf registry "o2")
      (quantizeBy quot (freon - burned)) (quantizeBy quot (oxygen - burned * (1.4 - scale)))
      [(indexOf registry "co2", burned)]
    let temperature' :=
      frozenTemperature quot registry gases after temperature minimum (3.0e5 * burned)
    .ok (some ⟨after, temperature',
      eventValues (burned * (1.0 + (1.4 - scale))) temperature temperature' 0.0⟩)

section Keys

variable (hheld : Holds registry ["o2", "freon", "co2"])
include hheld

theorem freonFire_dividing (gases : Gases ℚ) (temperature minimum : ℚ) :
    @freonFire ℚ (Exact.dividing zero) gases temperature minimum registry =
      freonBody (Exact.quotient zero) registry gases temperature minimum := by
  have hkey : ∀ key ∈ ["o2", "freon", "co2"],
      reactionGasIndex registry key = .ok (indexOf registry key) := fun key h => hheld.index h
  unfold freonFire
  rw [hkey "o2" (by simp), hkey "freon" (by simp), hkey "co2" (by simp)]
  dsimp only [Exact.dividing]
  rfl

theorem freonFire_eq (gases : Gases ℚ) (temperature minimum : ℚ) :
    freonFire gases temperature minimum registry =
      freonBody (· / ·) registry gases temperature minimum := by
  have hkey : ∀ key ∈ ["o2", "freon", "co2"],
      reactionGasIndex registry key = .ok (indexOf registry key) := fun key h => hheld.index h
  unfold freonFire
  rw [hkey "o2" (by simp), hkey "freon" (by simp), hkey "co2" (by simp)]
  rfl

end Keys

theorem freonScale_quotient : freonScale (Exact.quotient zero) = freonScale (· / ·) := by
  funext temperature
  rw [freonScale, Exact.quotient_of_ne (by norm_num)]
  rfl

theorem freonRate_quotient (scale oxygen freon : ℚ) :
    freonRate (Exact.quotient zero) scale oxygen freon =
      freonRate (· / ·) scale oxygen freon := by
  have hfull (a : ℚ) : Exact.quotient zero a 10.0 = a / 10.0 := Exact.quotient_of_ne (by norm_num)
  have hdelta (a : ℚ) : Exact.quotient zero a 4.0 = a / 4.0 := Exact.quotient_of_ne (by norm_num)
  simp only [freonRate, hfull, hdelta]

theorem frozenTemperature_quotient (registry : GasMetadataRegistry ℚ) (gases gases' : Gases ℚ)
    (temperature minimum heat : ℚ) :
    frozenTemperature (Exact.quotient zero) registry gases gases' temperature minimum heat =
      frozenTemperature (· / ·) registry gases gases' temperature minimum heat := by
  unfold frozenTemperature
  split
  · next h =>
    rw [exact_minimumHeatCapacity] at h
    rw [Exact.quotient_of_ne (lt_trans (by norm_num) h).ne']
  · rfl

theorem freonScale_le_one (temperature : ℚ) : freonScale (· / ·) temperature ≤ 1 := by
  unfold freonScale
  split_ifs with hterminal hlower
  · norm_num
  · norm_num
  · rw [div_le_one (by norm_num)]
    linarith

/-- A freon fire divides by zero nowhere. -/
theorem freonBody_quotient (gases : Gases ℚ) (temperature minimum : ℚ) :
    freonBody (Exact.quotient zero) registry gases temperature minimum =
      freonBody (· / ·) registry gases temperature minimum := by
  have hscale := freonScale_le_one temperature
  simp only [freonBody, freonScale_quotient, quantizeBy_quotient, quantizeBy_div,
    freonRate_quotient, frozenTemperature_quotient]
  generalize freonScale (· / ·) temperature = scale at hscale ⊢
  have hratio : 1.4 - scale ≠ 0 := by
    have hpos : (0 : ℚ) < 1.4 - scale := by norm_num; linarith
    exact hpos.ne'
  rw [Exact.quotient_of_ne hratio]

/-- A freon fire that burns at all has oxygen. -/
theorem oxygen_pos_of_freonRate {scale oxygen freon : ℚ} (hoxygen : 0 ≤ oxygen)
    (hfreon : 0 < freon) (hrate : 3 / 10000 ≤ freonRate (· / ·) scale oxygen freon) :
    0 < oxygen := by
  refine lt_of_le_of_ne hoxygen fun hzero => ?_
  rw [← hzero, freonRate, if_pos (by positivity)] at hrate
  norm_num at hrate

/-- A freon fire consumes its energy unless the temperature ends at its floor. -/
theorem frozenTemperature_energy (registry : GasMetadataRegistry ℚ) (gases gases' : Gases ℚ)
    (temperature minimum heat : ℚ)
    (h : 3 / 10000 < reactionHeatCapacity gases' minimum registry) :
    frozenTemperature (· / ·) registry gases gases' temperature minimum heat *
        reactionHeatCapacity gases' minimum registry =
      temperature * reactionHeatCapacity gases minimum registry - heat ∨
    frozenTemperature (· / ·) registry gases gases' temperature minimum heat = 27 / 10 ∧
      temperature * reactionHeatCapacity gases minimum registry - heat ≤
        27 / 10 * reactionHeatCapacity gases' minimum registry := by
  have hpos : 0 < reactionHeatCapacity gases' minimum registry := lt_trans (by norm_num) h
  rw [frozenTemperature, exact_minimumHeatCapacity, if_pos h, exact_minimumTemperatureK,
    Exact.fmax_eq]
  rcases le_total (27 / 10) ((temperature * reactionHeatCapacity gases minimum registry - heat) /
    reactionHeatCapacity gases' minimum registry) with hwarm | hcold
  · rw [max_eq_left hwarm, div_mul_cancel₀ _ hpos.ne']
    exact .inl rfl
  · rw [max_eq_right hcold]
    exact .inr ⟨rfl, (div_le_iff₀ hpos).1 hcold⟩

end Freon

/-- What a freon fire leaves and reports. -/
def FreonBalance (registry : GasMetadataRegistry ℚ) (gases : Gases ℚ) (temperature minimum : ℚ)
    (outcome : NativeOutcome ℚ) : Prop :=
  ∃ burned, Burns registry gases temperature minimum outcome "freon" [("co2", 1)] burned
    (1.4 - freonScale (· / ·) temperature) (-300000) (1 / 20000) True ∧
  outcome.values = eventValues (burned * (1 + (1.4 - freonScale (· / ·) temperature)))
    temperature outcome.temperature 0

/-- **Freon fire** turns freon into carbon dioxide and consumes energy. -/
theorem freonFire_burns (htable : GasMetadataRegistry.tryNew list = .ok registry)
    (hheld : Holds registry ["o2", "freon", "co2"]) (hgases : ∀ index, 0 ≤ gases.at index)
    (temperature minimum : ℚ) :
    Yields (freonFire gases temperature minimum registry) fun outcome =>
      FreonBalance registry gases temperature minimum outcome := by
  have hfreonAt : amountOf registry gases "freon" = gases.at (indexOf registry "freon") :=
    hheld.amountOf (by simp) gases
  have hoxygenAt : amountOf registry gases "o2" = gases.at (indexOf registry "o2") :=
    hheld.amountOf (by simp) gases
  have hheldAll : Holds registry
      ("freon" :: "o2" :: [(("co2", 1) : String × ℚ)].map Prod.fst) := by
    intro key hkey
    refine hheld key ?_
    simp at hkey ⊢
    tauto
  have hnodup : ("freon" :: "o2" :: [(("co2", 1) : String × ℚ)].map Prod.fst).Nodup := by decide
  rw [freonFire_eq hheld]
  unfold freonBody FreonBalance
  dsimp only
  rw [← hfreonAt, ← hoxygenAt, quantizeBy_div]
  have hscale := freonScale_le_one temperature
  generalize freonScale (· / ·) temperature = scale at hscale ⊢
  by_cases hcold : scale ≤ 0.0 ∨ amountOf registry gases "freon" ≤ 0.0
  · rw [if_pos hcold]
    exact .inl rfl
  rw [if_neg hcold]
  by_cases hslow : freonRate (· / ·) scale (amountOf registry gases "o2")
      (amountOf registry gases "freon") < minimumHeatCapacity
  · rw [if_pos hslow]
    exact .inl rfl
  rw [if_neg hslow]
  rw [exact_minimumHeatCapacity, not_lt] at hslow
  rw [exact_zero, not_or, not_le, not_le] at hcold
  have hoxygen := oxygen_pos_of_freonRate (hoxygenAt ▸ hgases _) hcold.2 hslow
  have hratio : (0 : ℚ) < 1.4 - scale := by norm_num; linarith
  obtain ⟨hburned, hfuelLe, hoxygenLe⟩ := burned_limits
    (lt_of_lt_of_le (by norm_num) hslow) hcold.2 hoxygen hratio
  generalize fmin (fmin (freonRate (· / ·) scale (amountOf registry gases "o2")
    (amountOf registry gases "freon")) (amountOf registry gases "freon"))
    (amountOf registry gases "o2" / (1.4 - scale)) = burned at *
  refine .inr ⟨_, rfl, burned, burns_of_writes htable hheldAll hnodup hgases ?_ ?_
    hcold.2 hratio hburned hfuelLe hoxygenLe (quantize_error _) (quantize_error _)
    (quantize_nonneg (sub_nonneg.2 hfuelLe)) (quantize_nonneg (sub_nonneg.2 hoxygenLe))
    (fun h => ?_) (fun h => ?_), ?_⟩
  · simp
  · simp
  · rcases frozenTemperature_energy registry gases _ temperature minimum (3.0e5 * burned) h with
      henergy | ⟨hfloor, henergy⟩
    · refine .inl (henergy.trans ?_)
      ring
    · refine .inr ⟨trivial, hfloor, le_trans (le_of_eq ?_) henergy⟩
      ring
  · exact if_neg (by rwa [exact_minimumHeatCapacity, not_lt])
  · rw [exact_one, exact_zero]

end Fire

/-! ## The four reactions -/

section Reactions

variable {list : List (GasMetadata ℚ)} {kind : NativeReactionKind}

/-- The gases a reaction looks up. -/
def requiredGases : NativeReactionKind → List String
  | .plasma => ["o2", "plasma", "co2", "tritium", "water_vapor"]
  | .hydrogen => ["o2", "hydrogen", "water_vapor"]
  | .tritium => ["o2", "tritium", "water_vapor"]
  | .freon => ["o2", "freon", "co2"]

/-- What a reaction that happens leaves and reports. -/
def Balances (kind : NativeReactionKind) (registry : GasMetadataRegistry ℚ) (gases : Gases ℚ)
    (temperature volume minimum : ℚ) (outcome : NativeOutcome ℚ) : Prop :=
  match kind with
  | .plasma => PlasmaBalance registry gases temperature minimum outcome
  | .hydrogen => CombustBalance "hydrogen"
      (fun burned _ temperature => #v[burned, temperature, 0.0, 0.0])
      registry gases temperature minimum outcome
  | .tritium => CombustBalance "tritium"
      (fun burned energy temperature => #v[burned, energy, volume, temperature])
      registry gases temperature minimum outcome
  | .freon => FreonBalance registry gases temperature minimum outcome

theorem hydrogenFire_burns (htable : GasMetadataRegistry.tryNew list = .ok registry)
    (hheld : Holds registry ["o2", "hydrogen", "water_vapor"])
    (hgases : ∀ index, 0 ≤ gases.at index) (temperature minimum : ℚ) :
    Yields (hydrogenFire gases temperature minimum registry)
      (CombustBalance "hydrogen" (fun burned _ temperature => #v[burned, temperature, 0.0, 0.0])
        registry gases temperature minimum) :=
  combustFuel_burns htable (by decide) hheld hgases
    (fun burned _ temperature => #v[burned, temperature, 0.0, 0.0]) temperature minimum

theorem tritiumFire_burns (htable : GasMetadataRegistry.tryNew list = .ok registry)
    (hheld : Holds registry ["o2", "tritium", "water_vapor"])
    (hgases : ∀ index, 0 ≤ gases.at index) (temperature volume minimum : ℚ) :
    Yields (tritiumFire gases temperature volume minimum registry)
      (CombustBalance "tritium"
        (fun burned energy temperature => #v[burned, energy, volume, temperature])
        registry gases temperature minimum) :=
  combustFuel_burns htable (by decide) hheld hgases
    (fun burned energy temperature => #v[burned, energy, volume, temperature]) temperature minimum

theorem mixtureFinite_of_nonneg (hgases : ∀ index, 0 ≤ gases.at index) (temperature : ℚ) :
    mixtureFinite temperature gases = true := by
  rw [mixtureFinite, Exact.isFinite_eq, Bool.true_and, List.all_eq_true]
  intro amount hamount
  obtain ⟨index, hindex, rfl⟩ := List.mem_iff_getElem.1 hamount
  have hat := hgases index
  rw [Vector.length_toList] at hindex
  rw [Gases.at_eq_getElem _ hindex] at hat
  rw [Exact.isFinite_eq, Vector.getElem_toList, exact_zero, decide_eq_false (not_lt.2 hat)]
  rfl

theorem Yields.bind {result : Except NativeReactionError (Option (NativeOutcome ℚ))}
    {P : NativeOutcome ℚ → Prop} (h : Yields result P)
    {next : Option (NativeOutcome ℚ) → Except NativeReactionError (Option (NativeOutcome ℚ))}
    (hnone : next none = .ok none)
    (hsome : ∀ outcome, P outcome → next (some outcome) = .ok (some outcome)) :
    Yields (result >>= next) P := by
  rcases h with rfl | ⟨outcome, rfl, houtcome⟩
  · exact .inl hnone
  · exact .inr ⟨outcome, hsome outcome houtcome, houtcome⟩

/-- The check of a result passes where no amount is negative. -/
theorem checked_of_nonneg {outcome : NativeOutcome ℚ} (h : ∀ index, 0 ≤ outcome.gases.at index) :
    (mixtureFinite outcome.temperature outcome.gases &&
      outcome.values.toList.all FloatFormat.isFinite) = true := by
  have hvalues : outcome.values.toList.all FloatFormat.isFinite = true :=
    List.all_eq_true.2 fun value _ => Exact.isFinite_eq value
  rw [mixtureFinite_of_nonneg h, hvalues]
  rfl

/-- No reaction divides by zero: whatever a quotient by zero were, the result is the same. -/
theorem executeNative_dividing (hheld : Holds registry (requiredGases kind)) (zero : ℚ → ℚ)
    (gases : Gases ℚ) (temperature volume minimum : ℚ) :
    @executeNative ℚ (Exact.dividing zero) kind gases temperature volume minimum registry =
      executeNative kind gases temperature volume minimum registry := by
  unfold executeNative
  cases kind with
  | plasma =>
    dsimp only
    rw [plasmaFire_dividing zero hheld, plasmaBody_quotient, ← plasmaFire_eq hheld]
    rfl
  | hydrogen =>
    dsimp only [hydrogenFire]
    rw [combustFuel_dividing zero hheld, combustBody_quotient, ← combustFuel_eq hheld]
    rfl
  | tritium =>
    dsimp only [tritiumFire]
    rw [combustFuel_dividing zero hheld, combustBody_quotient, ← combustFuel_eq hheld]
    rfl
  | freon =>
    dsimp only
    rw [freonFire_dividing zero hheld, freonBody_quotient, ← freonFire_eq hheld]
    rfl

/-- Each reaction divides by zero nowhere, never fails, and balances where it happens. -/
theorem native_reactions_balance (htable : GasMetadataRegistry.tryNew list = .ok registry)
    (hheld : Holds registry (requiredGases kind)) (hgases : ∀ index, 0 ≤ gases.at index)
    (temperature volume minimum : ℚ) :
    (∀ zero, @executeNative ℚ (Exact.dividing zero) kind gases temperature volume minimum registry =
      executeNative kind gases temperature volume minimum registry) ∧
    Yields (executeNative kind gases temperature volume minimum registry)
      (Balances kind registry gases temperature volume minimum) := by
  refine ⟨fun zero => executeNative_dividing hheld zero gases temperature volume minimum, ?_⟩
  have hfinite := mixtureFinite_of_nonneg hgases temperature
  unfold executeNative Balances
  cases kind with
  | plasma =>
    refine (plasmaFire_burns htable hheld hgases temperature minimum).bind ?_ ?_
    · exact if_pos hfinite
    · rintro outcome ⟨burned, hburns, hvalues⟩
      exact if_pos (checked_of_nonneg hburns.nonneg)
  | hydrogen =>
    refine (hydrogenFire_burns htable hheld hgases temperature minimum).bind ?_ ?_
    · exact if_pos hfinite
    · rintro outcome ⟨burned, hburns, hvalues⟩
      exact if_pos (checked_of_nonneg hburns.nonneg)
  | tritium =>
    refine (tritiumFire_burns htable hheld hgases temperature volume minimum).bind ?_ ?_
    · exact if_pos hfinite
    · rintro outcome ⟨burned, hburns, hvalues⟩
      exact if_pos (checked_of_nonneg hburns.nonneg)
  | freon =>
    refine (freonFire_burns htable hheld hgases temperature minimum).bind ?_ ?_
    · exact if_pos hfinite
    · rintro outcome ⟨burned, hburns, hvalues⟩
      exact if_pos (checked_of_nonneg hburns.nonneg)

/-- A gas of the tables below. -/
def fireGas (index : UInt16) (key : String) : GasMetadata ℚ :=
  { id := ⟨index⟩, key, name := key, flags := 0, specificHeat := 20, fusionPower := 0
    molesVisible := none, enthalpy := 0, fireRadiationReleased := 0, fireRole := .none
    fireProducts := none }

/-- The gases of a plasma fire. -/
def plasmaTable : List (GasMetadata ℚ) :=
  [fireGas 0 "o2", fireGas 1 "plasma", fireGas 2 "co2", fireGas 3 "tritium",
    fireGas 4 "water_vapor"]

/-- Plasma in a hundred times as much oxygen. -/
def plasmaCloud : Gases ℚ := (noGases.put 0 1000).put 1 10

theorem native_reactions_balance_plasma : ∃ registry outcome,
    GasMetadataRegistry.tryNew plasmaTable = .ok registry ∧
    executeNative .plasma plasmaCloud 1000 2500 0 registry = .ok (some outcome) ∧
    Balances .plasma registry plasmaCloud 1000 2500 0 outcome := by
  have hheld : ((GasMetadataRegistry.tryNew plasmaTable).toOption.map fun registry =>
      (requiredGases .plasma).all fun key => (registry.byKey key).isSome) = some true := by
    decide +kernel
  have hfires : ((GasMetadataRegistry.tryNew plasmaTable).toOption.map fun registry =>
      ((executeNative .plasma plasmaCloud 1000 2500 0 registry).toOption.join).isSome) =
        some true := by
    decide +kernel
  have hgases : ∀ index, 0 ≤ plasmaCloud.at index := by
    intro index
    rw [plasmaCloud, Gases.at_put, Gases.at_put, Gases.at_noGases]
    split_ifs <;> norm_num
  rcases htable : GasMetadataRegistry.tryNew plasmaTable with error | registry
  · rw [htable] at hheld
    cases hheld
  rw [htable] at hheld hfires
  have hall := List.all_eq_true.1 (Option.some.inj hheld)
  have hyields := (native_reactions_balance htable hall hgases 1000 2500 0).2
  rcases hyields with hnone | ⟨outcome, hsome, hbalances⟩
  · have hfired := Option.some.inj hfires
    dsimp only at hfired
    rw [hnone] at hfired
    cases hfired
  · exact ⟨registry, outcome, rfl, hsome, hbalances⟩

end Reactions

end Dogmos
