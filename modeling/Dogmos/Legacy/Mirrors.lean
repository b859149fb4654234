import Dogmos.Exact.NativeReactions
import Dogmos.Legacy.Fires
import Dogmos.Legacy.Selection

/-!
# One mixture in both backends

A fire of the in-process backend and the native reaction of the service read and write the same
gases, but keep them differently: a mutator of the in-process backend drops traces and caches the
heat capacity.  Where no amount is a trace this makes no difference.

* `Mirrors` — a legacy mixture with the gases and the temperature the service has.
* `Mirrors.setMoles`, `Mirrors.adjustAll`, `Mirrors.reheat` — each step of a fire keeps it.
* `Agrees` — two fires that leave the same mixture and report the same numbers.
-/

namespace Dogmos

namespace Legacy

open Exec Mixture

variable {gases : GasMetadataRegistry ℚ} {moles : Gases ℚ} {m : Mixture ℚ}
  {temperature temperature' volume minimum : ℚ} {idx : Nat} {amount delta : ℚ}

/-! ## A mixture in both backends -/

/-- An amount that no collection of garbage drops. -/
def Untraced (amount : ℚ) : Prop := amount = 0 ∨ 1 / 10000 < amount

theorem Untraced.nonneg (h : Untraced amount) : 0 ≤ amount := by
  rcases h with rfl | hpos
  · exact le_refl 0
  · exact (lt_trans (by norm_num) hpos).le

/-- What is stored of an amount that is no trace is all of it. -/
theorem Untraced.eq_of_collects {stored : ℚ} (h : Untraced amount)
    (hstored : Collects amount stored) : stored = amount := by
  rcases hstored with heq | ⟨hzero, hsmall⟩
  · exact heq
  · rcases h with rfl | hlarge
    · exact hzero
    · exact absurd hsmall (not_le.2 hlarge)

/-- A mutable mixture of the in-process backend with the state a mixture of the service has. -/
structure Mirrors (gases : GasMetadataRegistry ℚ) (moles : Gases ℚ)
    (temperature volume minimum : ℚ) (m : Mixture ℚ) : Prop where
  amounts : ∀ i, m.getMoles i = moles.at i
  untraced : ∀ i, Untraced (moles.at i)
  coherent : Coherent (tableOf gases) m
  immutable : m.immutable = false
  temperature : m.temperature = temperature
  volume : m.volume = volume
  minimum : m.minHeatCapacity = minimum

theorem putMoles_fields (m : Mixture ℚ) (idx : Nat) (amount : ℚ) :
    (m.putMoles idx amount).immutable = m.immutable ∧
      (m.putMoles idx amount).temperature = m.temperature ∧
      (m.putMoles idx amount).volume = m.volume ∧
      (m.putMoles idx amount).minHeatCapacity = m.minHeatCapacity := by
  unfold putMoles
  split_ifs <;> exact ⟨rfl, rfl, rfl, rfl⟩

namespace Mirrors

section Steps

variable (h : Mirrors gases moles temperature volume minimum m)
include h

theorem putMoles (hidx : idx < maxGasSlots) (hkept : Untraced amount) :
    Mirrors gases (moles.put idx amount) temperature volume minimum
      (m.putMoles idx (collected amount)) := by
  obtain ⟨himmutable, htemperature, hvolume, hminimum⟩ := putMoles_fields m idx (collected amount)
  have hat : ∀ i, Gases.at (moles.put idx amount) i = if i = idx then amount else moles.at i := by
    intro i
    rw [Gases.at_put]
    by_cases hi : i = idx
    · rw [if_pos ⟨hi, hidx⟩, if_pos hi]
    · rw [if_neg fun hboth => hi hboth.1, if_neg hi]
  have hkeptAt : ∀ i, Untraced (if i = idx then amount else moles.at i) := by
    intro i
    split
    · exact hkept
    · exact h.untraced i
  exact
    { amounts := fun i => by
        have hstored := collects_putMoles h.immutable idx i amount
        rw [h.amounts] at hstored
        rw [hat, (hkeptAt i).eq_of_collects hstored]
      untraced := fun i => hat i ▸ hkeptAt i
      coherent := h.coherent.putMoles idx _
      immutable := himmutable.trans h.immutable
      temperature := htemperature.trans h.temperature
      volume := hvolume.trans h.volume
      minimum := hminimum.trans h.minimum }

theorem setMoles (hidx : idx < (tableOf gases).length) (hsmall : idx < maxGasSlots)
    (hkept : Untraced amount) :
    ∃ m', run (mutating (Mixture.setMoles (tableOf gases) idx amount)) m = (.ok (), m') ∧
      Mirrors gases (moles.put idx amount) temperature volume minimum m' := by
  refine ⟨_, ?_, h.putMoles hsmall hkept⟩
  rw [mutating, run_embed, id, run_setMoles m hidx hkept.nonneg]
  rfl

theorem adjustMoles (hidx : idx < (tableOf gases).length) (hsmall : idx < maxGasSlots)
    (hkept : Untraced (moles.at idx + delta)) (hlarge : moles.at idx + delta ≤ Exact.largest) :
    ∃ m', run (mutating (Mixture.adjustMoles (D := ℚ) (tableOf gases) idx delta)) m =
        (.ok (), m') ∧
      Mirrors gases (moles.put idx (moles.at idx + delta)) temperature volume minimum m' := by
  have hput := h.putMoles hsmall hkept
  by_cases hdelta : delta = 0
  · refine ⟨m, ?_, ?_⟩
    · rw [mutating, run_embed, id, hdelta, run_adjustMoles_zero m hidx]
      rfl
    · have hat : ∀ i, Gases.at (moles.put idx (moles.at idx + delta)) i = moles.at i := by
        intro i
        rw [Gases.at_put, hdelta, add_zero]
        split
        · next hi => rw [hi.1]
        · rfl
      exact { h with
        amounts := fun i => (h.amounts i).trans (hat i).symm
        untraced := fun i => (hat i).symm ▸ h.untraced i }
  · refine ⟨_, ?_, hput⟩
    rw [mutating, run_embed, id, run_adjustMoles h.immutable hidx hdelta
      (by rw [h.amounts]; exact hkept.nonneg), h.amounts, if_neg (not_lt.2 hlarge)]
    rfl

omit h in
/-- Amounts are added gas by gas; where none ends as a trace, each is stored as it is. -/
theorem adjustAll {products : List (Nat × ℚ)} : ∀ {moles : Gases ℚ} {m : Mixture ℚ},
    Mirrors gases moles temperature volume minimum m → (products.map Prod.fst).Nodup →
    (∀ product ∈ products, product.1 < (tableOf gases).length ∧ product.1 < maxGasSlots) →
    (∀ i, Untraced (Gases.at (products.foldl (fun moles (index, amount) =>
      Gases.put moles index (moles.at index + amount)) moles) i)) →
    (∀ i, Gases.at (products.foldl (fun moles (index, amount) =>
      Gases.put moles index (moles.at index + amount)) moles) i ≤ Exact.largest) →
    ∃ m', (∀ {α : Type} (next : FireM ℚ α), run (products.foldr (fun product next =>
        mutating (Mixture.adjustMoles (D := ℚ) (tableOf gases) product.1 product.2) >>= fun _ =>
          next) next) m = run next m') ∧
      Mirrors gases (products.foldl (fun moles (index, amount) =>
        Gases.put moles index (moles.at index + amount)) moles) temperature volume minimum m' := by
  induction products with
  | nil => exact fun h _ _ _ _ => ⟨_, fun _ => rfl, h⟩
  | cons head rest ih =>
    intro moles m h hnodup hindices huntraced hlarge
    rw [List.map_cons, List.nodup_cons] at hnodup
    rw [List.forall_mem_cons] at hindices
    rw [List.foldl_cons] at huntraced hlarge ⊢
    -- the head is not written again, so its amount is the one in the end
    have hhead := (at_addProducts rest (moles.put head.1 (moles.at head.1 + head.2)) hnodup.2
      fun product hproduct => (hindices.2 product hproduct).2).2 head.1 hnodup.1
    rw [Gases.at_put, if_pos ⟨rfl, hindices.1.2⟩] at hhead
    obtain ⟨m₁, hrun₁, hm₁⟩ := h.adjustMoles hindices.1.1 hindices.1.2 (hhead ▸ huntraced head.1)
      (hhead ▸ hlarge head.1)
    obtain ⟨m₂, hrun₂, hm₂⟩ := ih hm₁ hnodup.2 hindices.2 huntraced hlarge
    refine ⟨m₂, fun next => ?_, hm₂⟩
    rw [List.foldr_cons, run_bind_ok hrun₁, hrun₂]

theorem setTemperature (htemperature : 27 / 10 ≤ temperature') :
    Mirrors gases moles temperature' volume minimum (m.setTemperature temperature') := by
  have hset : m.setTemperature temperature' = { m with temperature := temperature' } := by
    unfold Mixture.setTemperature
    rw [h.immutable, Exact.isFinite_eq, exact_tcmb, Exact.fmax_eq, max_eq_left htemperature]
    rfl
  have hcoherent := h.coherent.setTemperature temperature'
  rw [hset] at hcoherent ⊢
  exact { h with coherent := hcoherent, temperature := rfl }

theorem measured : Mirrors gases moles temperature volume minimum (m.measured (tableOf gases)) :=
  { h with coherent := h.coherent.measured }

theorem garbageCollect : Mirrors gases moles temperature volume minimum m.garbageCollect := by
  have hsame : ∀ i, m.garbageCollect.getMoles i = m.getMoles i := by
    intro i
    have hstored := collects_collected (m.getMoles i)
    rw [getMoles_garbageCollect]
    rw [h.amounts] at hstored ⊢
    exact (h.untraced i).eq_of_collects hstored
  have hslow : m.garbageCollect.slowHeatCapacity (tableOf gases) =
      m.slowHeatCapacity (tableOf gases) := by
    rw [slowHeatCapacity_eq, slowHeatCapacity_eq, gasHeatCapacity_eq, gasHeatCapacity_eq]
    simp only [hsame]
    rfl
  exact { h with
    amounts := fun i => (hsame i).trans (h.amounts i)
    coherent := by
      rw [Coherent, hslow, ← show m.heatCapacity (tableOf gases) = _ from h.coherent,
        heatCapacity, heatCapacity, hslow]
      rfl }

variable (hheats : gases.specificHeats = gases.gases.map GasMetadata.specificHeat)
include hheats

theorem heatCapacity_eq :
    m.heatCapacity (tableOf gases) = reactionHeatCapacity moles minimum gases := by
  have htable : (tableOf gases).specificHeats = gases.specificHeats := by
    rw [hheats, GasTable.specificHeats, tableOf, List.map_map]
    rfl
  rw [show m.heatCapacity (tableOf gases) = _ from h.coherent, slowHeatCapacity_eq,
    gasHeatCapacity_eq_fold h.amounts _ _ htable, h.minimum]
  rfl

theorem run_readHeatCapacity : run (readHeatCapacity (tableOf gases)) m =
    (.ok (reactionHeatCapacity moles minimum gases), m.measured (tableOf gases)) := by
  unfold readHeatCapacity
  rw [run_bind, run_get]
  dsimp only
  rw [run_bind, run_set]
  dsimp only
  rw [run_pure, h.heatCapacity_eq hheats]

/-- The temperature a fire ends with is set unless the heat capacity is too small. -/
theorem reheat (newTemperature : ℚ → ℚ) (hwarm : 27 / 10 ≤ temperature') (htemperature' :
      temperature' = if minimumHeatCapacity < reactionHeatCapacity moles minimum gases then
        newTemperature (reactionHeatCapacity moles minimum gases)
      else temperature) :
    ∃ m', run (reheat (tableOf gases) newTemperature) m = (.ok temperature', m') ∧
      Mirrors gases moles temperature' volume minimum m' := by
  have hmeasured := h.measured
  unfold Legacy.reheat
  rw [run_bind, h.run_readHeatCapacity hheats]
  dsimp only
  split at htemperature'
  · next hcapacity =>
    rw [if_pos hcapacity, run_bind, run_modify, ← htemperature']
    exact ⟨_, rfl, hmeasured.setTemperature hwarm⟩
  · next hcapacity =>
    rw [if_neg hcapacity, run_bind, run_get, htemperature']
    dsimp only
    rw [run_pure, hmeasured.temperature]
    exact ⟨_, rfl, hmeasured⟩

end Steps

end Mirrors

/-! ## Gases by their id -/

section Lookup

variable {list : List (GasMetadata ℚ)} {keys : List String} {key : String}
  (htable : GasMetadataRegistry.tryNew list = .ok gases) (hheld : Holds gases keys)
  (hkey : key ∈ keys)
include htable hheld hkey

theorem indexOf_lt : indexOf gases key < (tableOf gases).length := by
  obtain ⟨gas, hgas⟩ := Option.isSome_iff_exists.1 (hheld key hkey)
  obtain ⟨-, hplace⟩ := GasMetadataRegistry.byKey_of_tryNew htable hgas
  rw [tableOf, List.length_map, indexOf, hgas]
  exact (List.getElem?_eq_some_iff.1 hplace).1

theorem run_gasIdxFromString (m : Mixture ℚ) :
    run (gasIdxFromString (tableOf gases) key) m = (.ok (indexOf gases key), m) := by
  obtain ⟨gas, hgas⟩ := Option.isSome_iff_exists.1 (hheld key hkey)
  obtain ⟨hgasKey, hplace⟩ := GasMetadataRegistry.byKey_of_tryNew htable hgas
  have hindex : indexOf gases key = gas.id.index := by rw [indexOf, hgas]; rfl
  have hlt := indexOf_lt htable hheld hkey
  have hids : ((tableOf gases).map GasType.id).Nodup := by
    rw [tableOf, List.map_map]
    exact (collectGasKeys_distinct (GasMetadataRegistry.tryNew_ok htable).2.1).2
  have hinjective := List.nodup_iff_injective_get.1 hids
  have hfind : (tableOf gases).findIdx? (fun gas => gas.id == key) = some (indexOf gases key) := by
    rw [List.findIdx?_eq_some_iff_getElem]
    have hhere : (tableOf gases)[indexOf gases key].id = key := by
      obtain ⟨hi, heq⟩ := List.getElem?_eq_some_iff.1 hplace
      simp [tableOf, gasTypeOf, hindex, heq, hgasKey]
    refine ⟨hlt, by simp [hhere], fun j hj hsame => ?_⟩
    have hthere : ((tableOf gases).map GasType.id).get ⟨j, by simp; omega⟩ =
        ((tableOf gases).map GasType.id).get ⟨indexOf gases key, by simpa using hlt⟩ := by
      simpa [hhere] using hsame
    exact absurd (Fin.mk.inj_iff.1 (hinjective hthere)) (Nat.ne_of_lt hj)
  rw [gasIdxFromString, hfind]
  rfl

end Lookup

/-! ## Two fires that agree -/

/-- The agreement of a fire with what the service computes: nothing happens in both, or both leave
the same mixture and report the same numbers, the event padded with zeros.  The latter is asked for
only where no amount ends as a trace or past the largest number, and the new temperature is not
below the floor. -/
def Agrees (gases : GasMetadataRegistry ℚ) (moles : Gases ℚ) (temperature volume minimum : ℚ)
    (fire : FireM ℚ (Option (List ℚ))) (m : Mixture ℚ) : Option (NativeOutcome ℚ) → Prop
  | none => ∃ m', run fire m = (.ok none, m') ∧ Mirrors gases moles temperature volume minimum m'
  | some outcome =>
    (∀ i, Untraced (outcome.gases.at i)) → (∀ i, outcome.gases.at i ≤ Exact.largest) →
    27 / 10 ≤ outcome.temperature →
    ∃ arguments m', run fire m = (.ok (some arguments), m') ∧
      outcome.values.toList = arguments ++ List.replicate (4 - arguments.length) 0 ∧
      Mirrors gases outcome.gases outcome.temperature volume minimum m'

/-! ## Steps that do not divide

The mutators are the same computations whatever a quotient by zero is. -/

section Dividing

variable (zero : ℚ → ℚ)

theorem quantize_dividing (amount : ℚ) :
    @Legacy.quantize ℚ (Exact.dividing zero) amount = Legacy.quantize amount :=
  congrFun (quantizeBy_quotient zero) amount

theorem setMoles_dividing (table : GasTable ℚ) (idx : Nat) (amount : ℚ) :
    @Mixture.setMoles ℚ (Exact.dividing zero) table idx amount =
      Mixture.setMoles table idx amount :=
  rfl

theorem adjustMoles_dividing (table : GasTable ℚ) (idx : Nat) (amount : ℚ) :
    @Mixture.adjustMoles ℚ ℚ (Exact.dividing zero) inferInstance _ table idx amount =
      Mixture.adjustMoles (D := ℚ) table idx amount :=
  rfl

theorem reheat_dividing (table : GasTable ℚ) (newTemperature : ℚ → ℚ) :
    @Legacy.reheat ℚ (Exact.dividing zero) table newTemperature =
      Legacy.reheat table newTemperature :=
  rfl

theorem garbageCollect_dividing : @garbageCollect ℚ (Exact.dividing zero) = garbageCollect := rfl

end Dividing

end Legacy

end Dogmos
