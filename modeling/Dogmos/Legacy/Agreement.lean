import Dogmos.Legacy.Mirrors

/-!
# The four fires in both backends

The fire of each kind with its quotient as a parameter, and what it does beside the native reaction
of the service.  The in-process backend divides the oxygen by the plasma also where there is none;
what such a quotient is does not matter as long as it is large.

* `run_combustBy`, `freonBurnBy_agrees`, `plasmaBurnBy_agrees` — the writes of each fire.
* `native_legacy_agree` — the two backends agree.
-/

namespace Dogmos

namespace Legacy

open Exec Mixture

variable {gases : GasMetadataRegistry ℚ} {moles : Gases ℚ} {m : Mixture ℚ}
  {temperature volume minimum : ℚ}

/-! ## Hydrogen and tritium -/

section Combustion

variable (quot : ℚ → ℚ → ℚ) (zero : ℚ → ℚ)

/-- `combust` with its quotient as a parameter. -/
def combustBy (table : GasTable ℚ) (o2 fuel waterVapor : Nat) : FireM ℚ (Combustion ℚ) := do
  let air ← get
  let oldHeatCapacity ← readHeatCapacity table
  let burned := combustedFuel quot (air.getMoles fuel) (air.getMoles o2)
  if burned ≤ 0.0 ∨ air.getMoles fuel - burned < 0.0 ∨ air.getMoles o2 - burned * 0.5 < 0.0 then
    return ⟨0.0, 0.0, air.volume, air.temperature⟩
  else
    mutating (Mixture.adjustMoles (D := ℚ) table fuel (-burned))
    mutating (Mixture.adjustMoles (D := ℚ) table o2 (-(burned * 0.5)))
    mutating (Mixture.adjustMoles (D := ℚ) table waterVapor burned)
    let newTemperature ←
      if 0.0 < 2.8e6 * burned then
        reheat table fun newHeatCapacity =>
          quot (air.temperature * oldHeatCapacity + 2.8e6 * burned) newHeatCapacity
      else pure air.temperature
    modify garbageCollect
    return ⟨burned, 2.8e6 * burned, air.volume, newTemperature⟩

theorem combust_dividing (table : GasTable ℚ) (o2 fuel waterVapor : Nat) :
    @combust ℚ ℚ (Exact.dividing zero) inferInstance _ table o2 fuel waterVapor =
      combustBy (Exact.quotient zero) table o2 fuel waterVapor := by
  unfold combust combustBy
  rfl

variable {list : List (GasMetadata ℚ)} {fuel : String}
  (htable : GasMetadataRegistry.tryNew list = .ok gases)
  (hfuel : [fuel, "o2", "water_vapor"].Nodup) (hheld : Holds gases ["o2", fuel, "water_vapor"])
  (hm : Mirrors gases moles temperature volume minimum m)
include htable hfuel hheld hm

/-- What `combust` does beside the service's fire. -/
theorem run_combustBy (report : ℚ → ℚ → ℚ → Vector ℚ 4) :
    (combustBody quot fuel report gases moles temperature minimum = .ok none ∧
      ∃ m', run (combustBy quot (tableOf gases) (indexOf gases "o2") (indexOf gases fuel)
        (indexOf gases "water_vapor")) m = (.ok ⟨0, 0, volume, temperature⟩, m') ∧
        Mirrors gases moles temperature volume minimum m') ∨
    ∃ burned outcome, 0 < burned ∧
      combustBody quot fuel report gases moles temperature minimum = .ok (some outcome) ∧
      outcome.values = report burned (2.8e6 * burned) outcome.temperature ∧
      ((∀ i, Untraced (outcome.gases.at i)) → (∀ i, outcome.gases.at i ≤ Exact.largest) →
        27 / 10 ≤ outcome.temperature →
        ∃ m', run (combustBy quot (tableOf gases) (indexOf gases "o2") (indexOf gases fuel)
          (indexOf gases "water_vapor")) m =
            (.ok ⟨burned, 2.8e6 * burned, volume, outcome.temperature⟩, m') ∧
          Mirrors gases outcome.gases outcome.temperature volume minimum m') := by
  have hheats := (GasMetadataRegistry.wellFormed_of_tryNew htable).specificHeats
  have hheldAll : Holds gases [fuel, "o2", "water_vapor"] := by
    intro key hkey
    refine hheld key ?_
    simp at hkey ⊢
    tauto
  have hnodup := hheldAll.nodup htable hfuel
  simp only [List.map_cons, List.map_nil, List.nodup_cons, List.mem_cons, not_or] at hnodup
  obtain ⟨⟨hfuelOxygen, hfuelWater, -⟩, ⟨hoxygenWater, -⟩, -⟩ := hnodup
  have hlt : ∀ key ∈ ["o2", fuel, "water_vapor"], indexOf gases key < (tableOf gases).length :=
    fun key hkey => indexOf_lt htable hheld hkey
  have hsmall : ∀ key ∈ ["o2", fuel, "water_vapor"], indexOf gases key < maxGasSlots :=
    fun key hkey => hheld.lt htable hkey
  unfold combustBy combustBody
  rw [run_bind, run_get]
  dsimp only
  rw [run_bind_ok (hm.run_readHeatCapacity hheats), hm.amounts, hm.amounts, hm.temperature,
    hm.volume]
  generalize hburned : combustedFuel quot (moles.at (indexOf gases fuel))
    (moles.at (indexOf gases "o2")) = burned
  by_cases hnone : burned ≤ 0.0 ∨ moles.at (indexOf gases fuel) - burned < 0.0 ∨
      moles.at (indexOf gases "o2") - burned * 0.5 < 0.0
  · rw [if_pos hnone, if_pos hnone, exact_zero]
    exact .inl ⟨rfl, _, rfl, hm.measured⟩
  rw [if_neg hnone, if_neg hnone]
  rw [exact_zero, not_or, not_or, not_le, not_lt, not_lt] at hnone
  obtain ⟨hpos, hfuelLeft, hoxygenLeft⟩ := hnone
  have hput : ∀ left, Gases.at (moles.put (indexOf gases fuel) left) (indexOf gases "o2") =
      moles.at (indexOf gases "o2") := by
    intro left
    rw [Gases.at_put, if_neg fun h => hfuelOxygen h.1.symm]
  have hheat : (0.0 : ℚ) < 2.8e6 * burned := by
    rw [exact_zero]
    exact mul_pos (by norm_num) hpos
  rw [hput, if_pos hheat, exact_zero, Exact.fmax_eq, Exact.fmax_eq, max_eq_left hfuelLeft,
    max_eq_left hoxygenLeft, sub_eq_add_neg, sub_eq_add_neg]
  refine .inr ⟨burned, _, hpos, rfl, rfl, fun huntraced hlarge hwarm => ?_⟩
  dsimp only at huntraced hlarge hwarm ⊢
  have hafter : burnedGases moles (indexOf gases fuel) (indexOf gases "o2")
      (moles.at (indexOf gases fuel) + -burned) (moles.at (indexOf gases "o2") + -(burned * 0.5))
      [(indexOf gases "water_vapor", burned)] =
      [(indexOf gases fuel, -burned), (indexOf gases "o2", -(burned * 0.5)),
        (indexOf gases "water_vapor", burned)].foldl
        (fun moles entry => Gases.put moles entry.1 (moles.at entry.1 + entry.2)) moles := by
    simp only [burnedGases, List.foldl_cons, List.foldl_nil, hput]
  rw [hafter] at huntraced hlarge hwarm ⊢
  obtain ⟨m₁, hrun₁, hm₁⟩ := hm.measured.adjustAll (by simp [hfuelOxygen, hfuelWater, hoxygenWater])
    (by simp [hlt, hsmall]) huntraced hlarge
  obtain ⟨m₂, hrun₂, hm₂⟩ := hm₁.reheat hheats (fun newHeatCapacity =>
    quot (temperature * reactionHeatCapacity moles minimum gases + 2.8e6 * burned) newHeatCapacity)
    hwarm rfl
  refine ⟨_, (hrun₁ _).trans ?_, hm₂.garbageCollect⟩
  rw [run_bind_ok hrun₂, run_bind, run_modify]
  rfl

end Combustion

section Reports

variable (zero : ℚ → ℚ) {list : List (GasMetadata ℚ)}

theorem hydrogenFire_agrees (htable : GasMetadataRegistry.tryNew list = .ok gases)
    (hheld : Holds gases ["o2", "hydrogen", "water_vapor"])
    (hm : Mirrors gases moles temperature volume minimum m) : ∃ result,
    combustBody (Exact.quotient zero) "hydrogen"
        (fun burned _ temperature => #v[burned, temperature, 0.0, 0.0]) gases moles temperature
        minimum = .ok result ∧
      Agrees gases moles temperature volume minimum
        (@hydrogenFire ℚ ℚ (Exact.dividing zero) inferInstance _ (tableOf gases)) m result := by
  have hfire : run (@hydrogenFire ℚ ℚ (Exact.dividing zero) inferInstance _ (tableOf gases)) m =
      run (combustBy (Exact.quotient zero) (tableOf gases) (indexOf gases "o2")
        (indexOf gases "hydrogen") (indexOf gases "water_vapor") >>= fun combustion =>
          if combustion.burnedFuel ≤ 0.0 then pure none
          else pure (some [combustion.burnedFuel, combustion.temperature])) m := by
    unfold hydrogenFire
    rw [run_bind_ok (run_gasIdxFromString htable hheld (by simp) m),
      run_bind_ok (run_gasIdxFromString htable hheld (by simp) m),
      run_bind_ok (run_gasIdxFromString htable hheld (by simp) m), combust_dividing]
  unfold Agrees
  rw [hfire]
  rcases run_combustBy (Exact.quotient zero) htable (by decide) hheld hm
    (fun burned _ temperature => #v[burned, temperature, 0.0, 0.0]) with
    ⟨hnone, m', hrun, hm'⟩ | ⟨burned, outcome, hpos, hsome, hvalues, hrun⟩
  · refine ⟨none, hnone, m', ?_, hm'⟩
    rw [run_bind_ok hrun, exact_zero]
    rfl
  · refine ⟨some outcome, hsome, fun huntraced hlarge hwarm => ?_⟩
    obtain ⟨m', hrun, hm'⟩ := hrun huntraced hlarge hwarm
    refine ⟨[burned, outcome.temperature], m', ?_, ?_, hm'⟩
    · rw [run_bind_ok hrun, exact_zero]
      exact congrArg (run · m') (if_neg (not_le.2 hpos))
    · rw [hvalues, exact_zero]
      rfl

theorem tritiumFire_agrees (htable : GasMetadataRegistry.tryNew list = .ok gases)
    (hheld : Holds gases ["o2", "tritium", "water_vapor"])
    (hm : Mirrors gases moles temperature volume minimum m) : ∃ result,
    combustBody (Exact.quotient zero) "tritium"
        (fun burned energy temperature => #v[burned, energy, volume, temperature]) gases moles
        temperature minimum = .ok result ∧
      Agrees gases moles temperature volume minimum
        (@tritiumFire ℚ ℚ (Exact.dividing zero) inferInstance _ (tableOf gases)) m result := by
  have hfire : run (@tritiumFire ℚ ℚ (Exact.dividing zero) inferInstance _ (tableOf gases)) m =
      run (combustBy (Exact.quotient zero) (tableOf gases) (indexOf gases "o2")
        (indexOf gases "tritium") (indexOf gases "water_vapor") >>= fun combustion =>
          if combustion.burnedFuel ≤ 0.0 then pure none
          else pure (some [combustion.burnedFuel, combustion.energyReleased, combustion.volume,
            combustion.temperature])) m := by
    unfold tritiumFire
    rw [run_bind_ok (run_gasIdxFromString htable hheld (by simp) m),
      run_bind_ok (run_gasIdxFromString htable hheld (by simp) m),
      run_bind_ok (run_gasIdxFromString htable hheld (by simp) m), combust_dividing]
  unfold Agrees
  rw [hfire]
  rcases run_combustBy (Exact.quotient zero) htable (by decide) hheld hm
    (fun burned energy temperature => #v[burned, energy, volume, temperature]) with
    ⟨hnone, m', hrun, hm'⟩ | ⟨burned, outcome, hpos, hsome, hvalues, hrun⟩
  · refine ⟨none, hnone, m', ?_, hm'⟩
    rw [run_bind_ok hrun, exact_zero]
    rfl
  · refine ⟨some outcome, hsome, fun huntraced hlarge hwarm => ?_⟩
    obtain ⟨m', hrun, hm'⟩ := hrun huntraced hlarge hwarm
    refine ⟨[burned, 2.8e6 * burned, volume, outcome.temperature], m', ?_, ?_, hm'⟩
    · rw [run_bind_ok hrun, exact_zero]
      exact congrArg (run · m') (if_neg (not_le.2 hpos))
    · rw [hvalues]
      rfl

end Reports

/-! ## Freon -/

section Freon

variable (quot : ℚ → ℚ → ℚ) (zero : ℚ → ℚ)

/-- What `freon_fire` reads, with its quotient as a parameter. -/
def freonPreMathBy (table : GasTable ℚ) (o2 freon : Nat) : FireM ℚ (Option (FreonPreMath ℚ)) := do
  let air ← get
  let scale := freonScale quot air.temperature
  if scale ≤ 0.0 then
    return none
  else
    let rate := freonRate quot scale (air.getMoles o2) (air.getMoles freon)
    if rate < Dogmos.minimumHeatCapacity then
      return none
    else
      let oldHeatCapacity ← readHeatCapacity table
      return some
        ⟨fmin (fmin rate (air.getMoles freon)) (quot (air.getMoles o2) (1.4 - scale)), 1.4 - scale,
          air.getMoles o2, air.getMoles freon, air.temperature, oldHeatCapacity⟩

theorem freonPreMath_dividing (table : GasTable ℚ) (o2 freon : Nat) :
    @freonPreMath ℚ (Exact.dividing zero) table o2 freon =
      freonPreMathBy (Exact.quotient zero) table o2 freon := by
  unfold freonPreMath freonPreMathBy
  rfl

/-- What `freon_fire` writes, with its quotient as a parameter. -/
def freonBurnBy (table : GasTable ℚ) (o2 freon co2 : Nat) (pre : FreonPreMath ℚ) :
    FireM ℚ (ℚ × ℚ) := do
  mutating (Mixture.setMoles table freon (Legacy.quantize (pre.freonMoles - pre.freonBurnRate)))
  mutating (Mixture.setMoles table o2
    (Legacy.quantize (pre.oxygenMoles - pre.freonBurnRate * pre.oxygenBurnRatio)))
  mutating (Mixture.adjustMoles (D := ℚ) table co2 pre.freonBurnRate)
  let newTemperature ← reheat table fun newHeatCapacity =>
    fmax (quot (pre.temperature * pre.oldHeatCapacity - 3e5 * pre.freonBurnRate)
      newHeatCapacity) tcmb
  modify garbageCollect
  return (pre.freonBurnRate * (1.0 + pre.oxygenBurnRatio), newTemperature)

theorem freonBurn_dividing (table : GasTable ℚ) (o2 freon co2 : Nat) (pre : FreonPreMath ℚ) :
    @freonBurn ℚ ℚ (Exact.dividing zero) inferInstance _ table o2 freon co2 pre =
      freonBurnBy (Exact.quotient zero) table o2 freon co2 pre := by
  unfold freonBurn freonBurnBy
  simp only [quantize_dividing, setMoles_dividing, adjustMoles_dividing, reheat_dividing,
    garbageCollect_dividing]
  rfl

/-- `freon_fire` behind its lookups, with its quotient as a parameter. -/
def freonFireBy (table : GasTable ℚ) (o2 freon co2 : Nat) : FireM ℚ (Option (List ℚ)) := do
  match ← freonPreMathBy quot table o2 freon with
  | none => return none
  | some pre =>
    let (fireAmount, newTemperature) ← freonBurnBy quot table o2 freon co2 pre
    return some [fireAmount, pre.temperature, newTemperature]

variable {list : List (GasMetadata ℚ)} (htable : GasMetadataRegistry.tryNew list = .ok gases)
  (hheld : Holds gases ["o2", "freon", "co2"])
include htable hheld

theorem run_freonFire (m : Mixture ℚ) :
    run (@freonFire ℚ ℚ (Exact.dividing zero) inferInstance _ (tableOf gases)) m =
      run (freonFireBy (Exact.quotient zero) (tableOf gases) (indexOf gases "o2")
        (indexOf gases "freon") (indexOf gases "co2")) m := by
  unfold freonFire freonFireBy
  rw [run_bind_ok (run_gasIdxFromString htable hheld (by simp) m),
    run_bind_ok (run_gasIdxFromString htable hheld (by simp) m),
    run_bind_ok (run_gasIdxFromString htable hheld (by simp) m)]
  simp only [freonPreMath_dividing, freonBurn_dividing]
  refine congrArg (run · m) (bind_congr fun pre => ?_)
  cases pre <;> rfl

variable (hm : Mirrors gases moles temperature volume minimum m)
include hm

omit htable hheld in
theorem run_freonPreMathBy (hheats : gases.specificHeats = gases.gases.map GasMetadata.specificHeat)
    (o2 freon : Nat) : run (freonPreMathBy quot (tableOf gases) o2 freon) m =
      if freonScale quot temperature ≤ 0.0 ∨ freonRate quot (freonScale quot temperature)
        (moles.at o2) (moles.at freon) < Dogmos.minimumHeatCapacity then (.ok none, m)
      else (.ok (some
        ⟨fmin (fmin (freonRate quot (freonScale quot temperature) (moles.at o2) (moles.at freon))
            (moles.at freon)) (quot (moles.at o2) (1.4 - freonScale quot temperature)),
          1.4 - freonScale quot temperature, moles.at o2, moles.at freon, temperature,
          reactionHeatCapacity moles minimum gases⟩), m.measured (tableOf gases)) := by
  unfold freonPreMathBy
  rw [run_bind, run_get]
  dsimp only
  rw [hm.temperature, hm.amounts, hm.amounts]
  by_cases hcold : freonScale quot temperature ≤ 0.0
  · rw [if_pos hcold, if_pos (.inl hcold), run_pure]
  rw [if_neg hcold]
  by_cases hslow : freonRate quot (freonScale quot temperature) (moles.at o2) (moles.at freon) <
      Dogmos.minimumHeatCapacity
  · rw [if_pos hslow, if_pos (.inr hslow), run_pure]
  rw [if_neg hslow, if_neg (not_or.2 ⟨hcold, hslow⟩),
    run_bind_ok (hm.run_readHeatCapacity hheats), run_pure]

/-- What `freon_fire` writes is what the service's fire leaves. -/
theorem freonBurnBy_agrees (burned ratio : ℚ) {after : Gases ℚ}
    (hafter : after = burnedGases moles (indexOf gases "freon") (indexOf gases "o2")
      (Legacy.quantize (moles.at (indexOf gases "freon") - burned))
      (Legacy.quantize (moles.at (indexOf gases "o2") - burned * ratio))
      [(indexOf gases "co2", burned)])
    (huntraced : ∀ i, Untraced (after.at i)) (hlarge : ∀ i, after.at i ≤ Exact.largest)
    (hwarm : 27 / 10 ≤
      frozenTemperature quot gases moles after temperature minimum (3e5 * burned)) :
    ∃ m', run (freonBurnBy quot (tableOf gases) (indexOf gases "o2") (indexOf gases "freon")
        (indexOf gases "co2") ⟨burned, ratio, moles.at (indexOf gases "o2"),
          moles.at (indexOf gases "freon"), temperature,
          reactionHeatCapacity moles minimum gases⟩) m =
        (.ok (burned * (1.0 + ratio),
          frozenTemperature quot gases moles after temperature minimum (3e5 * burned)), m') ∧
      Mirrors gases after (frozenTemperature quot gases moles after temperature minimum
        (3e5 * burned)) volume minimum m' := by
  have hheats := (GasMetadataRegistry.wellFormed_of_tryNew htable).specificHeats
  have hnodup := hheld.nodup htable (by decide)
  simp only [List.map_cons, List.map_nil, List.nodup_cons, List.mem_cons, not_or] at hnodup
  obtain ⟨⟨hoxygenFreon, hoxygenProduct, -⟩, ⟨hfreonProduct, -⟩, -⟩ := hnodup
  have hlt : ∀ key ∈ ["o2", "freon", "co2"], indexOf gases key < (tableOf gases).length :=
    fun key hkey => indexOf_lt htable hheld hkey
  have hsmall : ∀ key ∈ ["o2", "freon", "co2"], indexOf gases key < maxGasSlots :=
    fun key hkey => hheld.lt htable hkey
  have hdistinct : (indexOf gases "freon" :: indexOf gases "o2" ::
      [(indexOf gases "co2", burned)].map Prod.fst).Nodup := by
    simp [Ne.symm hoxygenFreon, hoxygenProduct, hfreonProduct]
  have hindices : ∀ index ∈ indexOf gases "freon" :: indexOf gases "o2" ::
      [(indexOf gases "co2", burned)].map Prod.fst, index < maxGasSlots := by
    simp [hsmall]
  obtain ⟨hfreonAt, hoxygenAt, -⟩ := at_burnedGases moles
    (Legacy.quantize (moles.at (indexOf gases "freon") - burned))
    (Legacy.quantize (moles.at (indexOf gases "o2") - burned * ratio)) hdistinct hindices
  rw [← hafter] at hfreonAt hoxygenAt
  obtain ⟨m₁, hrun₁, hm₁⟩ := hm.setMoles (hlt "freon" (by simp)) (hsmall "freon" (by simp))
    (hfreonAt ▸ huntraced _)
  obtain ⟨m₂, hrun₂, hm₂⟩ := hm₁.setMoles (hlt "o2" (by simp)) (hsmall "o2" (by simp))
    (hoxygenAt ▸ huntraced _)
  have hadded := hafter.symm
  rw [burnedGases] at hadded
  obtain ⟨m₃, hrun₃, hm₃⟩ := hm₂.adjustAll (by simp) (by simp [hlt, hsmall])
    (hadded ▸ huntraced) (hadded ▸ hlarge)
  rw [hadded] at hm₃
  obtain ⟨m₄, hrun₄, hm₄⟩ := hm₃.reheat hheats (fun newHeatCapacity =>
    fmax (quot (temperature * reactionHeatCapacity moles minimum gases - 3e5 * burned)
      newHeatCapacity) tcmb) hwarm rfl
  refine ⟨_, ?_, hm₄.garbageCollect⟩
  unfold freonBurnBy
  rw [run_bind_ok hrun₁, run_bind_ok hrun₂]
  refine (hrun₃ _).trans ?_
  rw [run_bind_ok hrun₄, run_bind, run_modify]
  rfl

theorem freonFire_agrees : ∃ result,
    freonBody (Exact.quotient zero) gases moles temperature minimum = .ok result ∧
      Agrees gases moles temperature volume minimum
        (@freonFire ℚ ℚ (Exact.dividing zero) inferInstance _ (tableOf gases)) m result := by
  have hheats := (GasMetadataRegistry.wellFormed_of_tryNew htable).specificHeats
  have hpre := run_freonPreMathBy (Exact.quotient zero) hm hheats (indexOf gases "o2")
    (indexOf gases "freon")
  unfold freonBody Agrees
  simp only [run_freonFire zero htable hheld]
  unfold freonFireBy
  dsimp only
  have hempty : ∀ scale, moles.at (indexOf gases "freon") ≤ 0.0 →
      freonRate (Exact.quotient zero) scale (moles.at (indexOf gases "o2"))
        (moles.at (indexOf gases "freon")) < Dogmos.minimumHeatCapacity := by
    intro scale h
    have hzero : moles.at (indexOf gases "freon") = 0 :=
      le_antisymm (by rwa [exact_zero] at h) (hm.untraced _).nonneg
    rw [freonRate_quotient, hzero, freonRate, zero_mul, if_neg (not_lt.2 (hm.untraced _).nonneg),
      zero_div, zero_mul, Dogmos.exact_minimumHeatCapacity]
    norm_num
  generalize freonScale (Exact.quotient zero) temperature = scale at *
  by_cases hcold : scale ≤ 0.0 ∨ freonRate (Exact.quotient zero) scale
      (moles.at (indexOf gases "o2")) (moles.at (indexOf gases "freon")) <
        Dogmos.minimumHeatCapacity
  · rw [if_pos hcold] at hpre
    refine ⟨none, ?_, m, ?_, hm⟩
    · split
      · rfl
      · next hwarm => exact if_pos (hcold.resolve_left fun h => hwarm (.inl h))
    · rw [run_bind_ok hpre]
      rfl
  rw [if_neg hcold] at hpre
  rw [not_or] at hcold
  rw [if_neg (not_or.2 ⟨hcold.1, mt (hempty scale) hcold.2⟩), if_neg hcold.2]
  refine ⟨_, rfl, fun huntraced hlarge hwarm => ?_⟩
  dsimp only at huntraced hlarge hwarm ⊢
  rw [quantizeBy_quotient] at huntraced hlarge hwarm ⊢
  rw [show (3.0e5 : ℚ) = 3e5 by norm_num] at hwarm ⊢
  obtain ⟨m', hburn, hm'⟩ := freonBurnBy_agrees (Exact.quotient zero) htable hheld hm.measured _ _
    rfl huntraced hlarge hwarm
  refine ⟨_, m', (run_bind_ok hpre).trans (run_bind_ok hburn), ?_, hm'⟩
  rw [exact_zero]
  rfl

end Freon

/-! ## Plasma -/

section Plasma

variable (quot : ℚ → ℚ → ℚ) (zero : ℚ → ℚ)

theorem plasmaTemperatureScale_dividing (temperature : ℚ) :
    @plasmaTemperatureScale ℚ (Exact.dividing zero) temperature =
      if plasmaScale (Exact.quotient zero) temperature ≤ 0.0 then none
      else some (plasmaScale (Exact.quotient zero) temperature) := by
  have hstart : (100.0 + 273.15 : ℚ) = 373.15 := by norm_num
  have hupper : (373.15 + 1270.0 : ℚ) = 1643.15 := by norm_num
  show (if (100.0 + 273.15 + 1270.0 : ℚ) < temperature then some (1.0 : ℚ)
    else if Exact.quotient zero (temperature - (100.0 + 273.15))
        (100.0 + 273.15 + 1270.0 - (100.0 + 273.15)) ≤ 0.0 then none
      else some (Exact.quotient zero (temperature - (100.0 + 273.15))
        (100.0 + 273.15 + 1270.0 - (100.0 + 273.15)))) = _
  rw [hstart, hupper, plasmaScale]
  split
  · rw [if_neg (by norm_num)]
  · rfl

/-- No plasma burns at no rate, whatever a quotient by zero is that is large enough. -/
theorem plasmaRate_empty (hzero : ∀ amount, 0 < amount → 96 ≤ zero amount) {scale oxygen : ℚ}
    (hoxygen : 0 ≤ oxygen) : (plasmaRate (Exact.quotient zero) scale oxygen 0).1 = 0 := by
  have hratio : Exact.quotient zero oxygen 0 = zero oxygen := by
    rw [Exact.quotient, if_pos rfl]
  have hdelta (a : ℚ) : Exact.quotient zero a 9.0 = a / 9.0 := Exact.quotient_of_ne (by norm_num)
  have hfull (a : ℚ) : Exact.quotient zero a 10.0 = a / 10.0 := Exact.quotient_of_ne (by norm_num)
  rw [plasmaRate, hratio, hdelta, hfull, hdelta]
  rcases hoxygen.eq_or_lt with rfl | hpos
  · simp only [zero_div, zero_mul]
    split_ifs <;> rfl
  · have hlarge : (96.0 : ℚ) ≤ zero oxygen := by
      norm_num
      exact hzero oxygen hpos
    rw [if_pos hlarge, zero_div, zero_mul]

/-- What `plasma_fire` reads, with its quotient as a parameter. -/
def plasmaPreMathBy (table : GasTable ℚ) (o2 plasma : Nat) :
    FireM ℚ (Option (PlasmaPreMath ℚ)) := do
  let air ← get
  let scale := plasmaScale quot air.temperature
  if scale ≤ 0.0 then
    return none
  else
    let rate := plasmaRate quot scale (air.getMoles o2) (air.getMoles plasma)
    if rate.1 < Dogmos.minimumHeatCapacity then
      return none
    else
      let oldHeatCapacity ← readHeatCapacity table
      return some
        ⟨fmin (fmin rate.1 (air.getMoles plasma)) (quot (air.getMoles o2) (1.4 - scale)),
          1.4 - scale, rate.2, air.getMoles o2, air.getMoles plasma, air.temperature,
          oldHeatCapacity⟩

theorem plasmaPreMath_dividing (table : GasTable ℚ) (o2 plasma : Nat) :
    @plasmaPreMath ℚ (Exact.dividing zero) table o2 plasma =
      plasmaPreMathBy (Exact.quotient zero) table o2 plasma := by
  unfold plasmaPreMath plasmaPreMathBy
  simp only [plasmaTemperatureScale_dividing]
  refine bind_congr fun air => ?_
  by_cases hcold : plasmaScale (Exact.quotient zero) air.temperature ≤ 0.0
  · rw [if_pos hcold, if_pos hcold]
  · rw [if_neg hcold, if_neg hcold]
    rfl

/-- What `plasma_fire` writes, with its quotient as a parameter. -/
def plasmaBurnBy (table : GasTable ℚ) (o2 plasma co2 tritium waterVapor : Nat)
    (pre : PlasmaPreMath ℚ) : FireM ℚ (ℚ × ℚ) := do
  mutating (Mixture.setMoles table plasma (Legacy.quantize (pre.plasmaMoles - pre.plasmaBurnRate)))
  mutating (Mixture.setMoles table o2
    (Legacy.quantize (pre.oxygenMoles - pre.plasmaBurnRate * pre.oxygenBurnRatio)))
  if pre.superSaturation then
    mutating (Mixture.adjustMoles (D := ℚ) table tritium pre.plasmaBurnRate)
  else
    mutating (Mixture.adjustMoles (D := ℚ) table co2 (pre.plasmaBurnRate * 0.75))
    mutating (Mixture.adjustMoles (D := ℚ) table waterVapor (pre.plasmaBurnRate * 0.25))
  let newTemperature ← reheat table fun newHeatCapacity =>
    quot (pre.temperature * pre.oldHeatCapacity + 3e6 * pre.plasmaBurnRate) newHeatCapacity
  modify garbageCollect
  return (pre.plasmaBurnRate * (1.0 + pre.oxygenBurnRatio), newTemperature)

theorem plasmaBurn_dividing (table : GasTable ℚ) (o2 plasma co2 tritium waterVapor : Nat)
    (pre : PlasmaPreMath ℚ) :
    @plasmaBurn ℚ ℚ (Exact.dividing zero) inferInstance _ table o2 plasma co2 tritium waterVapor
        pre =
      plasmaBurnBy (Exact.quotient zero) table o2 plasma co2 tritium waterVapor pre := by
  unfold plasmaBurn plasmaBurnBy
  simp only [quantize_dividing, setMoles_dividing, adjustMoles_dividing, reheat_dividing,
    garbageCollect_dividing]
  rfl

/-- `plasma_fire` behind its lookups, with its quotient as a parameter. -/
def plasmaFireBy (table : GasTable ℚ) (o2 plasma co2 tritium waterVapor : Nat) :
    FireM ℚ (Option (List ℚ)) := do
  match ← plasmaPreMathBy quot table o2 plasma with
  | none => return none
  | some pre =>
    let (fireAmount, newTemperature) ← plasmaBurnBy quot table o2 plasma co2 tritium waterVapor pre
    return some [fireAmount, newTemperature]

variable {list : List (GasMetadata ℚ)} (htable : GasMetadataRegistry.tryNew list = .ok gases)
  (hheld : Holds gases ["o2", "plasma", "co2", "tritium", "water_vapor"])
include htable hheld

theorem run_plasmaFire (m : Mixture ℚ) :
    run (@plasmaFire ℚ ℚ (Exact.dividing zero) inferInstance _ (tableOf gases)) m =
      run (plasmaFireBy (Exact.quotient zero) (tableOf gases) (indexOf gases "o2")
        (indexOf gases "plasma") (indexOf gases "co2") (indexOf gases "tritium")
        (indexOf gases "water_vapor")) m := by
  unfold plasmaFire plasmaFireBy
  rw [run_bind_ok (run_gasIdxFromString htable hheld (by simp) m),
    run_bind_ok (run_gasIdxFromString htable hheld (by simp) m),
    run_bind_ok (run_gasIdxFromString htable hheld (by simp) m),
    run_bind_ok (run_gasIdxFromString htable hheld (by simp) m),
    run_bind_ok (run_gasIdxFromString htable hheld (by simp) m)]
  simp only [plasmaPreMath_dividing, plasmaBurn_dividing]
  refine congrArg (run · m) (bind_congr fun pre => ?_)
  cases pre <;> rfl

variable (hm : Mirrors gases moles temperature volume minimum m)
include hm

omit htable hheld in
theorem run_plasmaPreMathBy
    (hheats : gases.specificHeats = gases.gases.map GasMetadata.specificHeat) (o2 plasma : Nat) :
    run (plasmaPreMathBy quot (tableOf gases) o2 plasma) m =
      if plasmaScale quot temperature ≤ 0.0 ∨ (plasmaRate quot (plasmaScale quot temperature)
        (moles.at o2) (moles.at plasma)).1 < Dogmos.minimumHeatCapacity then (.ok none, m)
      else (.ok (some
        ⟨fmin (fmin (plasmaRate quot (plasmaScale quot temperature) (moles.at o2)
            (moles.at plasma)).1 (moles.at plasma))
            (quot (moles.at o2) (1.4 - plasmaScale quot temperature)),
          1.4 - plasmaScale quot temperature, (plasmaRate quot (plasmaScale quot temperature)
            (moles.at o2) (moles.at plasma)).2, moles.at o2, moles.at plasma, temperature,
          reactionHeatCapacity moles minimum gases⟩), m.measured (tableOf gases)) := by
  unfold plasmaPreMathBy
  rw [run_bind, run_get]
  dsimp only
  rw [hm.temperature, hm.amounts, hm.amounts]
  by_cases hcold : plasmaScale quot temperature ≤ 0.0
  · rw [if_pos hcold, if_pos (.inl hcold), run_pure]
  rw [if_neg hcold]
  by_cases hslow : (plasmaRate quot (plasmaScale quot temperature) (moles.at o2)
      (moles.at plasma)).1 < Dogmos.minimumHeatCapacity
  · rw [if_pos hslow, if_pos (.inr hslow), run_pure]
  rw [if_neg hslow, if_neg (not_or.2 ⟨hcold, hslow⟩),
    run_bind_ok (hm.run_readHeatCapacity hheats), run_pure]

/-- What `plasma_fire` writes is what the service's fire leaves. -/
theorem plasmaBurnBy_agrees (burned ratio : ℚ) (superSaturation : Bool) {after : Gases ℚ}
    (hafter : after = burnedGases moles (indexOf gases "plasma") (indexOf gases "o2")
      (Legacy.quantize (moles.at (indexOf gases "plasma") - burned))
      (Legacy.quantize (moles.at (indexOf gases "o2") - burned * ratio))
      (if superSaturation then [(indexOf gases "tritium", burned)]
      else [(indexOf gases "co2", burned * 0.75), (indexOf gases "water_vapor", burned * 0.25)]))
    (huntraced : ∀ i, Untraced (after.at i)) (hlarge : ∀ i, after.at i ≤ Exact.largest)
    (hwarm : 27 / 10 ≤ firedTemperature quot gases moles after temperature minimum (3e6 * burned)) :
    ∃ m', run (plasmaBurnBy quot (tableOf gases) (indexOf gases "o2") (indexOf gases "plasma")
        (indexOf gases "co2") (indexOf gases "tritium") (indexOf gases "water_vapor")
        ⟨burned, ratio, superSaturation, moles.at (indexOf gases "o2"),
          moles.at (indexOf gases "plasma"), temperature,
          reactionHeatCapacity moles minimum gases⟩) m =
        (.ok (burned * (1.0 + ratio),
          firedTemperature quot gases moles after temperature minimum (3e6 * burned)), m') ∧
      Mirrors gases after (firedTemperature quot gases moles after temperature minimum
        (3e6 * burned)) volume minimum m' := by
  have hheats := (GasMetadataRegistry.wellFormed_of_tryNew htable).specificHeats
  have hnodup := hheld.nodup htable (by decide)
  have hlt : ∀ key ∈ ["o2", "plasma", "co2", "tritium", "water_vapor"],
      indexOf gases key < (tableOf gases).length :=
    fun key hkey => indexOf_lt htable hheld hkey
  have hsmall : ∀ key ∈ ["o2", "plasma", "co2", "tritium", "water_vapor"],
      indexOf gases key < maxGasSlots :=
    fun key hkey => hheld.lt htable hkey
  generalize hproducts : (if superSaturation then [(indexOf gases "tritium", burned)]
    else [(indexOf gases "co2", burned * 0.75), (indexOf gases "water_vapor", burned * 0.25)]) =
      products at hafter
  have hdistinct : (indexOf gases "plasma" :: indexOf gases "o2" ::
      products.map Prod.fst).Nodup := by
    simp only [List.map_cons, List.map_nil, List.nodup_cons, List.mem_cons, not_or] at hnodup
    rw [← hproducts]
    cases superSaturation <;> simp [hnodup, Ne.symm hnodup.1.1]
  have hindices : ∀ index ∈ indexOf gases "plasma" :: indexOf gases "o2" ::
      products.map Prod.fst, index < maxGasSlots := by
    rw [← hproducts]
    cases superSaturation <;> simp [hsmall]
  have hbounds : ∀ product ∈ products,
      product.1 < (tableOf gases).length ∧ product.1 < maxGasSlots := by
    rw [← hproducts]
    cases superSaturation <;> simp [hlt, hsmall]
  obtain ⟨hplasmaAt, hoxygenAt, -⟩ := at_burnedGases moles
    (Legacy.quantize (moles.at (indexOf gases "plasma") - burned))
    (Legacy.quantize (moles.at (indexOf gases "o2") - burned * ratio)) hdistinct hindices
  rw [← hafter] at hplasmaAt hoxygenAt
  obtain ⟨m₁, hrun₁, hm₁⟩ := hm.setMoles (hlt "plasma" (by simp)) (hsmall "plasma" (by simp))
    (hplasmaAt ▸ huntraced _)
  obtain ⟨m₂, hrun₂, hm₂⟩ := hm₁.setMoles (hlt "o2" (by simp)) (hsmall "o2" (by simp))
    (hoxygenAt ▸ huntraced _)
  have hadded := hafter.symm
  rw [burnedGases] at hadded
  obtain ⟨m₃, hrun₃, hm₃⟩ := hm₂.adjustAll
    (List.nodup_cons.1 (List.nodup_cons.1 hdistinct).2).2 hbounds
    (hadded ▸ huntraced) (hadded ▸ hlarge)
  rw [hadded] at hm₃
  obtain ⟨m₄, hrun₄, hm₄⟩ := hm₃.reheat hheats (fun newHeatCapacity =>
    quot (temperature * reactionHeatCapacity moles minimum gases + 3e6 * burned)
      newHeatCapacity) hwarm rfl
  refine ⟨_, ?_, hm₄.garbageCollect⟩
  unfold plasmaBurnBy
  rw [run_bind_ok hrun₁, run_bind_ok hrun₂]
  subst hproducts
  cases superSaturation
  · refine (hrun₃ _).trans ?_
    rw [run_bind_ok hrun₄, run_bind, run_modify]
    rfl
  · refine (hrun₃ _).trans ?_
    rw [run_bind_ok hrun₄, run_bind, run_modify]
    rfl

theorem plasmaFire_agrees (hzero : ∀ amount, 0 < amount → 96 ≤ zero amount) : ∃ result,
    plasmaBody (Exact.quotient zero) gases moles temperature minimum = .ok result ∧
      Agrees gases moles temperature volume minimum
        (@plasmaFire ℚ ℚ (Exact.dividing zero) inferInstance _ (tableOf gases)) m result := by
  have hheats := (GasMetadataRegistry.wellFormed_of_tryNew htable).specificHeats
  have hpre := run_plasmaPreMathBy (Exact.quotient zero) hm hheats (indexOf gases "o2")
    (indexOf gases "plasma")
  have hempty : ∀ scale, moles.at (indexOf gases "plasma") ≤ 0.0 →
      (plasmaRate (Exact.quotient zero) scale (moles.at (indexOf gases "o2"))
        (moles.at (indexOf gases "plasma"))).1 < Dogmos.minimumHeatCapacity := by
    intro scale h
    have hplasma : moles.at (indexOf gases "plasma") = 0 :=
      le_antisymm (by rwa [exact_zero] at h) (hm.untraced _).nonneg
    rw [hplasma, plasmaRate_empty zero hzero (hm.untraced _).nonneg,
      Dogmos.exact_minimumHeatCapacity]
    norm_num
  unfold plasmaBody Agrees
  simp only [run_plasmaFire zero htable hheld]
  unfold plasmaFireBy
  dsimp only
  generalize plasmaScale (Exact.quotient zero) temperature = scale at *
  have hempty := hempty scale
  generalize plasmaRate (Exact.quotient zero) scale (moles.at (indexOf gases "o2"))
    (moles.at (indexOf gases "plasma")) = rate at *
  by_cases hcold : scale ≤ 0.0 ∨ rate.1 < Dogmos.minimumHeatCapacity
  · rw [if_pos hcold] at hpre
    refine ⟨none, ?_, m, ?_, hm⟩
    · split
      · rfl
      · next hwarm => exact if_pos (hcold.resolve_left fun h => hwarm (.inl h))
    · rw [run_bind_ok hpre]
      rfl
  rw [if_neg hcold] at hpre
  rw [not_or] at hcold
  rw [if_neg (not_or.2 ⟨hcold.1, mt hempty hcold.2⟩), if_neg hcold.2]
  refine ⟨_, rfl, fun huntraced hlarge hwarm => ?_⟩
  dsimp only at huntraced hlarge hwarm ⊢
  rw [quantizeBy_quotient] at huntraced hlarge hwarm ⊢
  rw [show (3.0e6 : ℚ) = 3e6 by norm_num] at hwarm ⊢
  obtain ⟨m', hburn, hm'⟩ := plasmaBurnBy_agrees (Exact.quotient zero) htable hheld hm.measured _ _
    rate.2 (apply_ite _ _ _ _).symm huntraced hlarge hwarm
  refine ⟨_, m', (run_bind_ok hpre).trans (run_bind_ok hburn), ?_, hm'⟩
  rw [exact_zero]
  rfl

end Plasma

/-! ## The four fires -/

section Kinds

variable {list : List (GasMetadata ℚ)} {kind : NativeReactionKind}

/-- The fire that `func_from_id` finds for a kind. -/
def fireOf {F D : Type} [FloatFormat F] [FloatFormat D] [FloatCast F D] :
    NativeReactionKind → GasTable F → FireM F (Option (List F))
  | .plasma => plasmaFire (D := D)
  | .hydrogen => hydrogenFire (D := D)
  | .tritium => tritiumFire (D := D)
  | .freon => freonFire (D := D)

/-- A check that every result passes changes nothing. -/
theorem bind_eq_of_yields {result : Except NativeReactionError (Option (NativeOutcome ℚ))}
    {P : NativeOutcome ℚ → Prop} (h : Yields result P)
    {next : Option (NativeOutcome ℚ) → Except NativeReactionError (Option (NativeOutcome ℚ))}
    (hnone : next none = .ok none)
    (hsome : ∀ outcome, P outcome → next (some outcome) = .ok (some outcome)) :
    result >>= next = result := by
  rcases h with rfl | ⟨outcome, rfl, houtcome⟩
  · exact hnone
  · exact hsome outcome houtcome

/-- **Both backends** run the same fire.  A quotient by zero, which only the in-process backend
computes, may be any number that is as large as the ratios it is compared with. -/
theorem native_legacy_agree (htable : GasMetadataRegistry.tryNew list = .ok gases)
    (hheld : Holds gases (requiredGases kind))
    (hm : Mirrors gases moles temperature volume minimum m) (zero : ℚ → ℚ)
    (hzero : ∀ amount, 0 < amount → 96 ≤ zero amount) : ∃ result,
    executeNative kind moles temperature volume minimum gases = .ok result ∧
      Agrees gases moles temperature volume minimum
        (@fireOf ℚ ℚ (Exact.dividing zero) inferInstance _ kind (tableOf gases)) m result := by
  have hgases : ∀ i, 0 ≤ moles.at i := fun i => (hm.untraced i).nonneg
  have hfinite := mixtureFinite_of_nonneg hgases temperature
  unfold executeNative
  cases kind with
  | plasma =>
    obtain ⟨result, hresult, hagrees⟩ := plasmaFire_agrees zero htable hheld hm hzero
    rw [plasmaBody_quotient, ← plasmaFire_eq hheld] at hresult
    refine ⟨result, Eq.trans (bind_eq_of_yields
      (plasmaFire_burns htable hheld hgases temperature minimum) ?_ ?_) hresult, hagrees⟩
    · exact if_pos hfinite
    · rintro outcome ⟨burned, hburns, hvalues⟩
      exact if_pos (checked_of_nonneg hburns.nonneg)
  | hydrogen =>
    obtain ⟨result, hresult, hagrees⟩ := hydrogenFire_agrees zero htable hheld hm
    rw [combustBody_quotient, ← combustFuel_eq hheld] at hresult
    refine ⟨result, Eq.trans (bind_eq_of_yields
      (hydrogenFire_burns htable hheld hgases temperature minimum) ?_ ?_) hresult, hagrees⟩
    · exact if_pos hfinite
    · rintro outcome ⟨burned, hburns, hvalues⟩
      exact if_pos (checked_of_nonneg hburns.nonneg)
  | tritium =>
    obtain ⟨result, hresult, hagrees⟩ := tritiumFire_agrees zero htable hheld hm
    rw [combustBody_quotient, ← combustFuel_eq hheld] at hresult
    refine ⟨result, Eq.trans (bind_eq_of_yields
      (tritiumFire_burns htable hheld hgases temperature volume minimum) ?_ ?_) hresult, hagrees⟩
    · exact if_pos hfinite
    · rintro outcome ⟨burned, hburns, hvalues⟩
      exact if_pos (checked_of_nonneg hburns.nonneg)
  | freon =>
    obtain ⟨result, hresult, hagrees⟩ := freonFire_agrees zero htable hheld hm
    rw [freonBody_quotient, ← freonFire_eq hheld] at hresult
    refine ⟨result, Eq.trans (bind_eq_of_yields
      (freonFire_burns htable hheld hgases temperature minimum) ?_ ?_) hresult, hagrees⟩
    · exact if_pos hfinite
    · rintro outcome ⟨burned, hburns, hvalues⟩
      exact if_pos (checked_of_nonneg hburns.nonneg)

/-- Plasma in a hundred times as much oxygen, with what there is of a fourth gas. -/
def cloudOf (trace : ℚ) : Mixture ℚ :=
  { temperature := 1000, volume := 2500, minHeatCapacity := 0, moles := [1000, 10, 0, 0, 0, trace]
    cachedHeatCapacity := none, immutable := false }

/-- The gases of the mixture above. -/
def gasesOf (trace : ℚ) : Gases ℚ := plasmaCloud.put 5 trace

/-- The gases of a plasma fire and nitrogen. -/
def airTable : List (GasMetadata ℚ) := plasmaTable ++ [fireGas 5 "n2"]

theorem getMoles_cloudOf (trace : ℚ) (i : Nat) :
    (cloudOf trace).getMoles i = (gasesOf trace).at i := by
  rw [getMoles_eq, gasesOf, plasmaCloud, Gases.at_put, Gases.at_put, Gases.at_put, Gases.at_noGases]
  rcases i with _ | _ | _ | _ | _ | _ | i <;> simp [cloudOf, maxGasSlots]

/-- What both backends make of the plasma fire in the mixture above. -/
def firesOf (trace : ℚ) :
    Option (GasMetadataRegistry ℚ × NativeOutcome ℚ × List ℚ × Mixture ℚ) := do
  let gases ← (GasMetadataRegistry.tryNew airTable).toOption
  let outcome ← (executeNative .plasma (gasesOf trace) 1000 2500 0 gases).toOption.join
  let after := run (fireOf (D := ℚ) .plasma (tableOf gases)) (cloudOf trace)
  let arguments ← after.1.toOption.join
  return (gases, outcome, arguments, after.2)

theorem join_toOption_eq_some {ε α : Type} {result : Except ε (Option α)} {a : α}
    (h : result.toOption.join = some a) : result = .ok (some a) := by
  rcases result with error | (_ | value)
  · cases h
  · cases h
  · cases h
    rfl

theorem firesOf_eq_some {trace : ℚ} {outcome : NativeOutcome ℚ} {arguments : List ℚ}
    (h : firesOf trace = some (gases, outcome, arguments, m)) :
    GasMetadataRegistry.tryNew airTable = .ok gases ∧
      executeNative .plasma (gasesOf trace) 1000 2500 0 gases = .ok (some outcome) ∧
      run (fireOf (D := ℚ) .plasma (tableOf gases)) (cloudOf trace) =
        (.ok (some arguments), m) := by
  obtain ⟨registry, htable, h⟩ := Option.bind_eq_some_iff.1 h
  obtain ⟨native, hnative, h⟩ := Option.bind_eq_some_iff.1 h
  obtain ⟨numbers, hlegacy, h⟩ := Option.bind_eq_some_iff.1 h
  cases h
  exact ⟨Exec.eq_ok_of_toOption htable, join_toOption_eq_some hnative,
    Prod.ext (join_toOption_eq_some hlegacy) rfl⟩

/-- Whether an outcome is one that both backends agree on. -/
def agreeable (outcome : NativeOutcome ℚ) : Bool :=
  outcome.gases.toList.all (fun amount =>
    (decide (amount = 0) || decide (1 / 10000 < amount)) && decide (amount ≤ Exact.largest)) &&
  decide (27 / 10 ≤ outcome.temperature)

theorem of_agreeable {outcome : NativeOutcome ℚ} (h : agreeable outcome = true) :
    (∀ i, Untraced (outcome.gases.at i)) ∧ (∀ i, outcome.gases.at i ≤ Exact.largest) ∧
      27 / 10 ≤ outcome.temperature := by
  rw [agreeable, Bool.and_eq_true, List.all_eq_true, decide_eq_true_eq] at h
  obtain ⟨hgases, hwarm⟩ := h
  have hat : ∀ i, Untraced (outcome.gases.at i) ∧ outcome.gases.at i ≤ Exact.largest := by
    intro i
    rw [← toList_getD]
    rcases hi : outcome.gases.toList[i]? with _ | amount
    · exact ⟨.inl rfl, by norm_num [Exact.largest]⟩
    · have hamount := hgases amount (List.mem_of_getElem? hi)
      simp only [Bool.and_eq_true, Bool.or_eq_true, decide_eq_true_eq] at hamount
      exact hamount
  exact ⟨fun i => (hat i).1, fun i => (hat i).2, hwarm⟩

theorem native_legacy_agree_cloud : ∃ gases outcome arguments m',
    GasMetadataRegistry.tryNew airTable = .ok gases ∧
    executeNative .plasma (gasesOf 0) 1000 2500 0 gases = .ok (some outcome) ∧
    run (@fireOf ℚ ℚ (Exact.dividing fun _ => 96) inferInstance _ .plasma (tableOf gases))
      (cloudOf 0) = (.ok (some arguments), m') ∧
    outcome.values.toList = arguments ++ List.replicate (4 - arguments.length) 0 ∧
    Mirrors gases outcome.gases outcome.temperature 2500 0 m' := by
  have hchecked : (firesOf 0).map (fun fires => agreeable fires.2.1 &&
      (requiredGases .plasma).all fun key => (fires.1.byKey key).isSome) = some true := by
    decide +kernel
  obtain ⟨⟨gases, outcome, numbers, after⟩, hfires, hchecked⟩ := Option.map_eq_some_iff.1 hchecked
  rw [Bool.and_eq_true] at hchecked
  obtain ⟨huntraced, hlarge, hwarm⟩ := of_agreeable hchecked.1
  obtain ⟨htable, hnative, -⟩ := firesOf_eq_some hfires
  have hm : Mirrors gases (gasesOf 0) 1000 2500 0 (cloudOf 0) :=
    { amounts := getMoles_cloudOf 0
      untraced := fun i => by
        rw [gasesOf, plasmaCloud, Gases.at_put, Gases.at_put, Gases.at_put, Gases.at_noGases,
          Untraced]
        split_ifs <;> norm_num
      coherent := coherent_of_none rfl
      immutable := rfl
      temperature := rfl
      volume := rfl
      minimum := rfl }
  obtain ⟨result, hresult, hagrees⟩ := native_legacy_agree htable
    (List.all_eq_true.1 hchecked.2) hm (fun _ => 96) fun _ _ => le_refl 96
  cases hnative.symm.trans hresult
  obtain ⟨arguments, m', hrun, hvalues, hm'⟩ := hagrees huntraced hlarge hwarm
  exact ⟨gases, outcome, arguments, m', htable, hnative, hrun, hvalues, hm'⟩

/-- A trace of a gas that the fire does not touch is collected by one backend and kept by the
other. -/
theorem native_legacy_differ : ∃ gases outcome arguments m',
    GasMetadataRegistry.tryNew airTable = .ok gases ∧
    (∀ i, (cloudOf (1 / 20000)).getMoles i = (gasesOf (1 / 20000)).at i) ∧
    Coherent (tableOf gases) (cloudOf (1 / 20000)) ∧
    executeNative .plasma (gasesOf (1 / 20000)) 1000 2500 0 gases = .ok (some outcome) ∧
    run (fireOf (D := ℚ) .plasma (tableOf gases)) (cloudOf (1 / 20000)) =
      (.ok (some arguments), m') ∧
    (∀ i ∈ [0, 1, 3], 1 / 10000 < outcome.gases.at i) ∧ 27 / 10 ≤ outcome.temperature ∧
    outcome.gases.at 5 = 1 / 20000 ∧ m'.getMoles 5 = 0 := by
  have hchecked : (firesOf (1 / 20000)).map (fun (_, outcome, _, m') =>
      ([0, 1, 3].all fun i => decide (1 / 10000 < outcome.gases.at i)) &&
        decide (27 / 10 ≤ outcome.temperature) && decide (outcome.gases.at 5 = 1 / 20000) &&
        decide (m'.getMoles 5 = 0)) = some true := by
    decide +kernel
  obtain ⟨⟨gases, outcome, arguments, m'⟩, hfires, hchecked⟩ := Option.map_eq_some_iff.1 hchecked
  obtain ⟨htable, hnative, hlegacy⟩ := firesOf_eq_some hfires
  simp only [Bool.and_eq_true, decide_eq_true_eq, List.all_eq_true] at hchecked
  obtain ⟨⟨⟨hset, hwarm⟩, hkept⟩, hcollected⟩ := hchecked
  exact ⟨gases, outcome, arguments, m', htable, getMoles_cloudOf _, coherent_of_none rfl, hnative,
    hlegacy, hset, hwarm, hkept, hcollected⟩

end Kinds

end Legacy

end Dogmos
