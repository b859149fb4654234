import Dogmos.Core.Reactions
import Dogmos.Exact.Registry

/-!
# Fires in exact arithmetic

A fire turns fuel and oxygen into products and heat.  How much burns is the smallest of several
limits, and two of the four fires round the rests of the reactants.

* `Burns` — the balance of one fire: what is consumed, what is made and where the energy goes.
* `at_burnedGases` — what the writes of a fire leave of each gas.
* `burns_of_writes` — a fire balances whose rests are close to what is left.
-/

namespace Dogmos

variable {registry : GasMetadataRegistry ℚ} {gases : Gases ℚ}

/-! ## The balance of a fire -/

/-- The amount of the gas with a key. -/
def amountOf (registry : GasMetadataRegistry ℚ) (gases : Gases ℚ) (key : String) : ℚ :=
  ((registry.byKey key).map fun gas => gases.at gas.id.index).getD 0

/-- The balance of one fire.  `burned` mol of the fuel and `ratio` times as much oxygen turn into
the products, up to `slack` for rounding, and `heat` joules for each of them; where `floored` holds
the temperature may end at its floor instead. -/
structure Burns (registry : GasMetadataRegistry ℚ) (gases : Gases ℚ) (temperature minimum : ℚ)
    (outcome : NativeOutcome ℚ) (fuel : String) (products : List (String × ℚ))
    (burned ratio heat slack : ℚ) (floored : Prop) : Prop where
  fuel_pos : 0 < amountOf registry gases fuel
  ratio_pos : 0 < ratio
  burned_pos : 0 < burned
  burned_le : burned ≤ amountOf registry gases fuel
  oxygen_le : burned * ratio ≤ amountOf registry gases "o2"
  fuel_left : |amountOf registry outcome.gases fuel -
    (amountOf registry gases fuel - burned)| ≤ slack
  oxygen_left : |amountOf registry outcome.gases "o2" -
    (amountOf registry gases "o2" - burned * ratio)| ≤ slack
  made : ∀ product ∈ products, amountOf registry outcome.gases product.1 =
    amountOf registry gases product.1 + burned * product.2
  others : ∀ index, (∀ key ∈ fuel :: "o2" :: products.map Prod.fst, ∀ gas,
    registry.byKey key = some gas → gas.id.index ≠ index) →
    outcome.gases.at index = gases.at index
  nonneg : ∀ index, 0 ≤ outcome.gases.at index
  energy : 3 / 10000 < reactionHeatCapacity outcome.gases minimum registry →
    outcome.temperature * reactionHeatCapacity outcome.gases minimum registry =
        temperature * reactionHeatCapacity gases minimum registry + burned * heat ∨
      floored ∧ outcome.temperature = 27 / 10 ∧
        temperature * reactionHeatCapacity gases minimum registry + burned * heat ≤
          27 / 10 * reactionHeatCapacity outcome.gases minimum registry
  cold : reactionHeatCapacity outcome.gases minimum registry ≤ 3 / 10000 →
    outcome.temperature = temperature

/-! ## What the writes leave -/

section Writes

variable {fuel oxygen : Nat} {products : List (Nat × ℚ)}

/-- The gases after a fire: what is left of the reactants, and what is added to the products. -/
def burnedGases (gases : Gases ℚ) (fuel oxygen : Nat) (fuelLeft oxygenLeft : ℚ)
    (products : List (Nat × ℚ)) : Gases ℚ :=
  products.foldl (fun gases (index, amount) => gases.put index (gases.at index + amount))
    ((gases.put fuel fuelLeft).put oxygen oxygenLeft)

theorem at_addProducts (products : List (Nat × ℚ)) : ∀ gases : Gases ℚ,
    (products.map Prod.fst).Nodup → (∀ product ∈ products, product.1 < maxGasSlots) →
    (∀ product ∈ products, Gases.at (products.foldl (fun gases (index, amount) =>
        Gases.put gases index (gases.at index + amount)) gases) product.1 =
      gases.at product.1 + product.2) ∧
    ∀ index, index ∉ products.map Prod.fst → Gases.at (products.foldl
      (fun gases (index, amount) => Gases.put gases index (gases.at index + amount)) gases) index =
        gases.at index := by
  induction products with
  | nil => exact fun gases _ _ => ⟨fun product h => (by cases h), fun index _ => rfl⟩
  | cons head rest ih =>
    intro gases hnodup hsmall
    rw [List.map_cons, List.nodup_cons] at hnodup
    rw [List.forall_mem_cons] at hsmall
    obtain ⟨hrest, hothers⟩ := ih (gases.put head.1 (gases.at head.1 + head.2)) hnodup.2 hsmall.2
    rw [List.foldl_cons]
    refine ⟨fun product hproduct => ?_, fun index hindex => ?_⟩
    · rcases List.mem_cons.1 hproduct with rfl | hproduct
      · rw [hothers _ hnodup.1, Gases.at_put, if_pos ⟨rfl, hsmall.1⟩]
      · have hne : product.1 ≠ head.1 := fun heq =>
          hnodup.1 (heq ▸ List.mem_map_of_mem hproduct)
        rw [hrest product hproduct, Gases.at_put, if_neg fun h => hne h.1]
    · rw [List.map_cons, List.mem_cons, not_or] at hindex
      rw [hothers index hindex.2, Gases.at_put, if_neg fun h => hindex.1 h.1]

/-- The reactants hold what is left of them, each product what is added, and all other gases what
they held. -/
theorem at_burnedGases (gases : Gases ℚ) (fuelLeft oxygenLeft : ℚ)
    (hnodup : (fuel :: oxygen :: products.map Prod.fst).Nodup)
    (hsmall : ∀ index ∈ fuel :: oxygen :: products.map Prod.fst, index < maxGasSlots) :
    (burnedGases gases fuel oxygen fuelLeft oxygenLeft products).at fuel = fuelLeft ∧
    (burnedGases gases fuel oxygen fuelLeft oxygenLeft products).at oxygen = oxygenLeft ∧
    (∀ product ∈ products, (burnedGases gases fuel oxygen fuelLeft oxygenLeft products).at
      product.1 = gases.at product.1 + product.2) ∧
    ∀ index, index ∉ fuel :: oxygen :: products.map Prod.fst →
      (burnedGases gases fuel oxygen fuelLeft oxygenLeft products).at index = gases.at index := by
  rw [List.forall_mem_cons, List.forall_mem_cons] at hsmall
  simp only [List.nodup_cons, List.mem_cons, not_or] at hnodup
  obtain ⟨⟨hfuelOxygen, hfuel⟩, hoxygen, hproducts⟩ := hnodup
  obtain ⟨hfuelSmall, hoxygenSmall, hproductsSmall⟩ := hsmall
  have hsmallProducts : ∀ product ∈ products, product.1 < maxGasSlots := fun product hproduct =>
    hproductsSmall _ (List.mem_map_of_mem hproduct)
  obtain ⟨hmade, hothers⟩ := at_addProducts products ((gases.put fuel fuelLeft).put oxygen
    oxygenLeft) hproducts hsmallProducts
  unfold burnedGases
  refine ⟨?_, ?_, fun product hproduct => ?_, fun index hindex => ?_⟩
  · rw [hothers fuel hfuel, Gases.at_put, if_neg fun h => hfuelOxygen h.1, Gases.at_put,
      if_pos ⟨rfl, hfuelSmall⟩]
  · rw [hothers oxygen hoxygen, Gases.at_put, if_pos ⟨rfl, hoxygenSmall⟩]
  · have hproductFuel : product.1 ≠ fuel := fun heq =>
      hfuel (heq ▸ List.mem_map_of_mem hproduct)
    have hproductOxygen : product.1 ≠ oxygen := fun heq =>
      hoxygen (heq ▸ List.mem_map_of_mem hproduct)
    rw [hmade product hproduct, Gases.at_put, if_neg fun h => hproductOxygen h.1, Gases.at_put,
      if_neg fun h => hproductFuel h.1]
  · simp only [List.mem_cons, not_or] at hindex
    rw [hothers index hindex.2.2, Gases.at_put, if_neg fun h => hindex.2.1 h.1, Gases.at_put,
      if_neg fun h => hindex.1 h.1]

end Writes

/-! ## Gases by key -/

section Keys

/-- The index of the gas with a key. -/
def indexOf (registry : GasMetadataRegistry ℚ) (key : String) : Nat :=
  ((registry.byKey key).map fun gas => gas.id.index).getD 0

variable {list : List (GasMetadata ℚ)} {keys : List String} {key : String}

/-- Every key of a list names a gas. -/
def Holds (registry : GasMetadataRegistry ℚ) (keys : List String) : Prop :=
  ∀ key ∈ keys, (registry.byKey key).isSome

theorem Holds.index (h : Holds registry keys) (hkey : key ∈ keys) :
    reactionGasIndex registry key = .ok (indexOf registry key) := by
  obtain ⟨gas, hgas⟩ := Option.isSome_iff_exists.1 (h key hkey)
  rw [reactionGasIndex, indexOf, hgas]
  rfl

theorem Holds.amountOf (h : Holds registry keys) (hkey : key ∈ keys) (gases : Gases ℚ) :
    amountOf registry gases key = gases.at (indexOf registry key) := by
  obtain ⟨gas, hgas⟩ := Option.isSome_iff_exists.1 (h key hkey)
  rw [Dogmos.amountOf, indexOf, hgas]
  rfl

theorem Holds.lt (htable : GasMetadataRegistry.tryNew list = .ok registry)
    (h : Holds registry keys) (hkey : key ∈ keys) : indexOf registry key < maxGasSlots := by
  obtain ⟨gas, hgas⟩ := Option.isSome_iff_exists.1 (h key hkey)
  obtain ⟨-, hplace⟩ := GasMetadataRegistry.byKey_of_tryNew htable hgas
  have hlength := (GasMetadataRegistry.wellFormed_of_tryNew htable).length
  rw [indexOf, hgas]
  exact Nat.lt_of_lt_of_le (List.getElem?_eq_some_iff.1 hplace).1 hlength

/-- Different keys have different indices. -/
theorem Holds.nodup (htable : GasMetadataRegistry.tryNew list = .ok registry)
    (h : Holds registry keys) (hkeys : keys.Nodup) : (keys.map (indexOf registry)).Nodup := by
  refine hkeys.map_on fun first hfirst second hsecond heq => ?_
  obtain ⟨gas, hgas⟩ := Option.isSome_iff_exists.1 (h first hfirst)
  obtain ⟨other, hother⟩ := Option.isSome_iff_exists.1 (h second hsecond)
  obtain ⟨hkey, hplace⟩ := GasMetadataRegistry.byKey_of_tryNew htable hgas
  obtain ⟨hotherKey, hotherPlace⟩ := GasMetadataRegistry.byKey_of_tryNew htable hother
  rw [indexOf, indexOf, hgas, hother] at heq
  have hindex : gas.id.index = other.id.index := heq
  rw [hindex, hotherPlace] at hplace
  rw [← hkey, ← hotherKey, Option.some.inj hplace]

end Keys

/-! ## One fire -/

section Fire

variable {list : List (GasMetadata ℚ)} {temperature minimum burned ratio heat slack : ℚ}
  {fuel : String} {products : List (String × ℚ)} {outcome : NativeOutcome ℚ}
  {fuelLeft oxygenLeft : ℚ} {floored : Prop}

/-- A fire balances whose writes are those of `burnedGases` with amounts that are in bounds. -/
theorem burns_of_writes (htable : GasMetadataRegistry.tryNew list = .ok registry)
    (hheld : Holds registry (fuel :: "o2" :: products.map Prod.fst))
    (hkeys : (fuel :: "o2" :: products.map Prod.fst).Nodup)
    (hgases : ∀ index, 0 ≤ gases.at index) (hproducts : ∀ product ∈ products, 0 ≤ product.2)
    (hwrites : outcome.gases = burnedGases gases (indexOf registry fuel) (indexOf registry "o2")
      fuelLeft oxygenLeft
        (products.map fun product => (indexOf registry product.1, burned * product.2)))
    (hfuel : 0 < amountOf registry gases fuel) (hratio : 0 < ratio) (hburned : 0 < burned)
    (hburnedLe : burned ≤ amountOf registry gases fuel)
    (hoxygenLe : burned * ratio ≤ amountOf registry gases "o2")
    (hfuelLeft : |fuelLeft - (amountOf registry gases fuel - burned)| ≤ slack)
    (hoxygenLeft : |oxygenLeft - (amountOf registry gases "o2" - burned * ratio)| ≤ slack)
    (hfuelNonneg : 0 ≤ fuelLeft) (hoxygenNonneg : 0 ≤ oxygenLeft)
    (henergy : 3 / 10000 < reactionHeatCapacity outcome.gases minimum registry →
      outcome.temperature * reactionHeatCapacity outcome.gases minimum registry =
          temperature * reactionHeatCapacity gases minimum registry + burned * heat ∨
        floored ∧ outcome.temperature = 27 / 10 ∧
          temperature * reactionHeatCapacity gases minimum registry + burned * heat ≤
            27 / 10 * reactionHeatCapacity outcome.gases minimum registry)
    (hcold : reactionHeatCapacity outcome.gases minimum registry ≤ 3 / 10000 →
      outcome.temperature = temperature) :
    Burns registry gases temperature minimum outcome fuel products burned ratio heat slack
      floored := by
  have hindices : (indexOf registry fuel :: indexOf registry "o2" ::
      (products.map fun product => (indexOf registry product.1, burned * product.2)).map
        Prod.fst) = (fuel :: "o2" :: products.map Prod.fst).map (indexOf registry) := by
    simp [Function.comp_def]
  obtain ⟨hfuelAt, hoxygenAt, hmade, hothers⟩ := at_burnedGases gases fuelLeft oxygenLeft
    (hindices ▸ hheld.nodup htable hkeys) (by
      rw [hindices, List.forall_mem_map]
      exact fun key hkey => hheld.lt htable hkey)
  rw [← hwrites] at hfuelAt hoxygenAt hmade hothers
  have hfuelKey : fuel ∈ fuel :: "o2" :: products.map Prod.fst := List.mem_cons_self
  have hoxygenKey : "o2" ∈ fuel :: "o2" :: products.map Prod.fst :=
    List.mem_cons_of_mem _ List.mem_cons_self
  have hproductKey : ∀ product ∈ products,
      product.1 ∈ fuel :: "o2" :: products.map Prod.fst := fun product hproduct =>
    List.mem_cons_of_mem _ (List.mem_cons_of_mem _ (List.mem_map_of_mem hproduct))
  have hentry : ∀ product ∈ products, outcome.gases.at (indexOf registry product.1) =
      gases.at (indexOf registry product.1) + burned * product.2 := fun product hproduct =>
    hmade (indexOf registry product.1, burned * product.2) (List.mem_map.2 ⟨product, hproduct, rfl⟩)
  exact {
    fuel_pos := hfuel
    ratio_pos := hratio
    burned_pos := hburned
    burned_le := hburnedLe
    oxygen_le := hoxygenLe
    fuel_left := by rwa [hheld.amountOf hfuelKey outcome.gases, hfuelAt]
    oxygen_left := by rwa [hheld.amountOf hoxygenKey outcome.gases, hoxygenAt]
    made := by
      intro product hproduct
      have hkey := hproductKey product hproduct
      rw [hheld.amountOf hkey, hheld.amountOf hkey]
      exact hentry product hproduct
    others := by
      intro index hindex
      refine hothers index fun hmem => ?_
      rw [hindices] at hmem
      obtain ⟨key, hkey, rfl⟩ := List.mem_map.1 hmem
      obtain ⟨gas, hgas⟩ := Option.isSome_iff_exists.1 (hheld key hkey)
      exact hindex key hkey gas hgas (by rw [indexOf, hgas]; rfl)
    nonneg := by
      intro index
      by_cases hmem : index ∈ (fuel :: "o2" :: products.map Prod.fst).map (indexOf registry)
      · obtain ⟨key, hkey, rfl⟩ := List.mem_map.1 hmem
        rcases List.mem_cons.1 hkey with rfl | hkey
        · rwa [hfuelAt]
        rcases List.mem_cons.1 hkey with rfl | hkey
        · rwa [hoxygenAt]
        · obtain ⟨product, hproduct, rfl⟩ := List.mem_map.1 hkey
          rw [hentry product hproduct]
          exact add_nonneg (hgases _) (mul_nonneg hburned.le (hproducts product hproduct))
      · rw [← hindices] at hmem
        rw [hothers index hmem]
        exact hgases index
    energy := henergy
    cold := hcold }

/-- The result of a reaction that never fails: nothing, or an outcome. -/
def Yields (result : Except NativeReactionError (Option (NativeOutcome ℚ)))
    (P : NativeOutcome ℚ → Prop) : Prop :=
  result = .ok none ∨ ∃ outcome, result = .ok (some outcome) ∧ P outcome

theorem roundHalfAway_error (x : ℚ) : |(Exact.roundHalfAway x : ℚ) - x| ≤ 1 / 2 := by
  unfold Exact.roundHalfAway
  split
  · have hlow := Int.lt_floor_add_one (x + 1 / 2)
    have hhigh := Int.floor_le (x + 1 / 2)
    rw [abs_le]
    constructor <;> linarith
  · have hlow := Int.lt_floor_add_one (-x + 1 / 2)
    have hhigh := Int.floor_le (-x + 1 / 2)
    rw [Int.cast_neg, abs_le]
    constructor <;> linarith

/-- Rounding an amount changes it by half a step at most. -/
theorem quantize_error (amount : ℚ) : |quantize amount - amount| ≤ 1 / 20000 := by
  have hround := abs_le.1 (roundHalfAway_error (amount / (1 / 10000)))
  rw [quantize, round_eq, exact_molarAccuracy, abs_le]
  constructor <;> linarith [hround.1, hround.2]

end Fire

end Dogmos
