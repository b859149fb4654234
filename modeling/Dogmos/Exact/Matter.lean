import Dogmos.Exact.Convexity

/-!
# What transfers do to the amount of a gas

A transfer between two mixtures keeps what both hold of each gas, less what is dropped as a trace
and what is past the largest number (`MatterKept`).  What it takes out of the source is limited by
what is there, with one exception: `transfer_gases` takes out of the source once for each time a
gas is listed, an amount it computed before the first, and gives all of it to the destination.
-/

namespace Dogmos

open DogmosWorld

/-! ## What is kept -/

/-- What becomes of an amount: it stays, it is dropped as a trace, or it is cut off at the largest
number. -/
inductive Settles : ℚ → ℚ → Prop
  | kept {amount : ℚ} (h : 0 ≤ amount) : Settles amount amount
  | dropped {amount : ℚ} (h : 0 ≤ amount) (htrace : amount < 1 / 100) : Settles amount 0
  | saturated {amount : ℚ} (h : Exact.largest < amount) : Settles amount Exact.largest

/-- What two mixtures hold of a gas before and after: neither amount is negative, there is no more
of it, and there is less only by what the amount in transit and the two amounts at the end lose. -/
structure MatterKept (x y x' y' : ℚ) : Prop where
  first : 0 ≤ x'
  second : 0 ≤ y'
  total : x' + y' ≤ x + y
  losses : ∃ transit transit' u v, Settles transit transit' ∧ Settles u x' ∧ Settles v y' ∧
    u + v + transit = x + y + transit'

variable {x y x' y' u v t t' : ℚ}

theorem Settles.nonneg (h : Settles u v) : 0 ≤ v := by
  cases h with
  | kept h => exact h
  | dropped _ _ => exact le_rfl
  | saturated _ => exact largest_pos.le

theorem Settles.le (h : Settles u v) : v ≤ u := by
  cases h with
  | kept _ => exact le_rfl
  | dropped h _ => exact h
  | saturated h => exact h.le

theorem MatterKept.of_settles (ht : Settles t t') (hu : Settles u x') (hv : Settles v y')
    (h : u + v + t = x + y + t') : MatterKept x y x' y' := by
  refine ⟨hu.nonneg, hv.nonneg, ?_, t, t', u, v, ht, hu, hv, h⟩
  linarith [ht.le, hu.le, hv.le]

/-- Nothing is lost in transit. -/
theorem MatterKept.of_moved (hu : Settles u x') (hv : Settles v y') (h : u + v = x + y) :
    MatterKept x y x' y' :=
  .of_settles (.kept le_rfl) hu hv (by rw [h])

variable {heats : List ℚ} {f s : MixtureRecord ℚ} {ratio : ℚ} {index : Nat}

/-- What `remove_ratio_into` counts the destination for: what it holds when nothing is removed,
and nothing when it is overwritten. -/
def overwritten (ratio : ℚ) (s : MixtureRecord ℚ) (index : Nat) : ℚ :=
  if ratio = 0 then s.gases.at index else 0

/-- What `share_ratio` takes out of a mixture. -/
def taken (ratio amount : ℚ) : ℚ :=
  if ratio ≤ 0 then 0 else quantizedRemoval amount (min ratio 1)

theorem taken_le (ratio : ℚ) (hx : 0 ≤ x) : taken ratio x ≤ x := by
  unfold taken
  split
  · exact hx
  · exact quantizedRemoval_le ..

/-- When a transfer of gases takes no more out of the source than is there: a gas is not listed
too often for the ratio, or there is none of it, or all of it that arrives is a trace. -/
def GasesSpared (indices : List Nat) (ratio : ℚ) (source destination : MixtureRecord ℚ) : Prop :=
  ∀ index < maxGasSlots, indices.count index * ratio ≤ 1 ∨ source.gases.at index = 0 ∨
    destination.gases.at index + gasMoved indices ratio source index < 1 / 100

namespace PairCommand

/-- What the second mixture is taken to hold before a command. -/
def counted (f s : MixtureRecord ℚ) : PairCommand → Nat → ℚ
  | removeRatioInto ratio => overwritten (max 0 (min ratio 1)) s
  | removeAmountInto amount => overwritten (max 0 (min (ratioOfAmount f amount) 1)) s
  | _ => s.gases.at

/-- When a command creates no gas. -/
def Spared (f s : MixtureRecord ℚ) : PairCommand → Prop
  | transferGases ratio gases => GasesSpared (gases.map GasId.index) (max 0 (min ratio 1)) f s
  | _ => True

end PairCommand

theorem evenPair_amounts : ∃ f s, evenPair.requireHandle ⟨0, 1⟩ = .ok f ∧
    evenPair.requireHandle ⟨1, 1⟩ = .ok s ∧ f.Physical ∧ s.Physical ∧ f.immutable = false ∧
    s.immutable = false ∧ f.gases.at 0 = 10 ∧ s.gases.at 0 = 0 := by
  obtain ⟨f, hfirst, hf⟩ : ∃ f, evenPair.requireHandle ⟨0, 1⟩ = .ok f ∧
      (f.isPhysical, f.immutable, f.gases.at 0) = (true, false, 10) :=
    exists_of_map (fun f => (f.isPhysical, f.immutable, f.gases.at 0)) (by decide +kernel)
  obtain ⟨s, hsecond, hs⟩ : ∃ s, evenPair.requireHandle ⟨1, 1⟩ = .ok s ∧
      (s.isPhysical, s.immutable, s.gases.at 0) = (true, false, 0) :=
    exists_of_map (fun s => (s.isPhysical, s.immutable, s.gases.at 0)) (by decide +kernel)
  simp only [Prod.mk.injEq] at hf hs
  exact ⟨f, s, hfirst, hsecond, MixtureRecord.physical_of_isPhysical hf.1,
    MixtureRecord.physical_of_isPhysical hs.1, hf.2.1, hs.2.1, hf.2.2, hs.2.2⟩

end Dogmos
