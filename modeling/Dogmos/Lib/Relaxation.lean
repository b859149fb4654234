import Dogmos.Lib.Mixing
import Mathlib.Algebra.BigOperators.Group.Finset.Basic
import Mathlib.Tactic.LinearCombination

/-!
# Relaxation along links

A system of values at places is relaxed link by link: each end of a link moves towards the other
by its share of their difference, and the next link works on what the last one left.

* `sum_relaxAll` — when the shares of a link are inverse to the weights of its ends, a weighted sum
  over places that no link leaves stays what it is.
* `relaxAll_mem` — shares of at most one keep all values between bounds there were.
* `relaxAll_frozen` — a place whose own shares are zero keeps its value.
-/

open Finset Function

namespace Relaxation

variable {ι K : Type}

/-- Two places, with the share of the difference that each moves by. -/
structure Link (ι K : Type) where
  first : ι
  second : ι
  firstShare : K
  secondShare : K

/-- No link of the list has one end in the set and one outside. -/
def Closed (links : List (Link ι K)) (s : Set ι) : Prop :=
  ∀ link ∈ links, link.first ∈ s ↔ link.second ∈ s

/-- Links within the classes of an equivalence do not leave a class. -/
theorem closed_class {links : List (Link ι K)} {r : ι → ι → Prop} (hr : Equivalence r)
    (h : ∀ link ∈ links, r link.first link.second) (i : ι) : Closed links {j | r i j} := by
  intro link hlink
  exact ⟨fun hfirst => hr.trans hfirst (h link hlink),
    fun hsecond => hr.trans hsecond (hr.symm (h link hlink))⟩

variable [DecidableEq ι] [Field K]

/-- What a link leaves. -/
def Link.relax (link : Link ι K) (x : ι → K) : ι → K :=
  let difference := x link.second - x link.first
  let x := update x link.first (x link.first + difference * link.firstShare)
  update x link.second (x link.second - difference * link.secondShare)

/-- What a list of links leaves, one after the other. -/
def relaxAll (links : List (Link ι K)) (x : ι → K) : ι → K :=
  links.foldl (fun x link => link.relax x) x

@[simp] theorem relaxAll_nil (x : ι → K) : relaxAll [] x = x := rfl

@[simp] theorem relaxAll_cons (link : Link ι K) (links : List (Link ι K)) (x : ι → K) :
    relaxAll (link :: links) x = relaxAll links (link.relax x) := rfl

theorem relaxAll_append (links links' : List (Link ι K)) (x : ι → K) :
    relaxAll (links ++ links') x = relaxAll links' (relaxAll links x) := List.foldl_append

variable {link : Link ι K} {links : List (Link ι K)} {x : ι → K} {i : ι}

theorem relax_first (h : link.first ≠ link.second) : link.relax x link.first =
    x link.first + (x link.second - x link.first) * link.firstShare := by
  unfold Link.relax
  simp [update_of_ne h]

theorem relax_second (h : link.first ≠ link.second) : link.relax x link.second =
    x link.second - (x link.second - x link.first) * link.secondShare := by
  unfold Link.relax
  simp [update_of_ne h.symm]

theorem relax_other (hfirst : i ≠ link.first) (hsecond : i ≠ link.second) : link.relax x i = x i := by
  unfold Link.relax
  simp [update_of_ne hfirst, update_of_ne hsecond]

/-- A place that no link moves stays as it is. -/
theorem relax_frozen (h : link.first ≠ link.second) (hfirst : link.first = i → link.firstShare = 0)
    (hsecond : link.second = i → link.secondShare = 0) : link.relax x i = x i := by
  by_cases hi : i = link.first
  · rw [hi, relax_first h, hfirst hi.symm, mul_zero, add_zero]
  · by_cases hi' : i = link.second
    · rw [hi', relax_second h, hsecond hi'.symm, mul_zero, sub_zero]
    · exact relax_other hi hi'

theorem relaxAll_frozen (h : ∀ link ∈ links, link.first ≠ link.second)
    (hfirst : ∀ link ∈ links, link.first = i → link.firstShare = 0)
    (hsecond : ∀ link ∈ links, link.second = i → link.secondShare = 0) :
    relaxAll links x i = x i := by
  induction links generalizing x with
  | nil => rfl
  | cons link rest ih =>
    rw [relaxAll_cons, ih (fun other hother => h other (List.mem_cons_of_mem _ hother))
      (fun other hother => hfirst other (List.mem_cons_of_mem _ hother))
      (fun other hother => hsecond other (List.mem_cons_of_mem _ hother))]
    exact relax_frozen (h link List.mem_cons_self) (hfirst link List.mem_cons_self)
      (hsecond link List.mem_cons_self)

/-! ## Weighted sums -/

/-- The shares of a link are inverse to the weights of its ends. -/
def Link.Balanced (link : Link ι K) (c : ι → K) : Prop :=
  c link.first * link.firstShare = c link.second * link.secondShare

theorem sum_relax {c : ι → K} {s : Finset ι} (h : link.first ≠ link.second)
    (hclosed : link.first ∈ s ↔ link.second ∈ s) (hbalanced : link.first ∈ s → link.Balanced c) :
    ∑ i ∈ s, c i * link.relax x i = ∑ i ∈ s, c i * x i := by
  by_cases hfirst : link.first ∈ s
  · have hsecond : link.second ∈ s.erase link.first :=
      mem_erase.2 ⟨h.symm, hclosed.1 hfirst⟩
    rw [← add_sum_erase s _ hfirst, ← add_sum_erase _ _ hsecond, ← add_sum_erase s _ hfirst,
      ← add_sum_erase (s.erase link.first) (fun i => c i * x i) hsecond]
    have hrest : ∑ i ∈ (s.erase link.first).erase link.second, c i * link.relax x i =
        ∑ i ∈ (s.erase link.first).erase link.second, c i * x i := by
      refine sum_congr rfl fun i hi => ?_
      rw [mem_erase, mem_erase] at hi
      rw [relax_other hi.2.1 hi.1]
    have hinverse : c link.first * link.firstShare = c link.second * link.secondShare :=
      hbalanced hfirst
    rw [hrest, relax_first h, relax_second h]
    linear_combination (x link.second - x link.first) * hinverse
  · refine sum_congr rfl fun i hi => ?_
    rw [relax_other (fun heq => hfirst (heq ▸ hi)) (fun heq => hfirst (hclosed.2 (heq ▸ hi)))]

/-- **Weighted sums stay.** -/
theorem sum_relaxAll {c : ι → K} {s : Finset ι} (h : ∀ link ∈ links, link.first ≠ link.second)
    (hclosed : Closed links s) (hbalanced : ∀ link ∈ links, link.first ∈ s → link.Balanced c) :
    ∑ i ∈ s, c i * relaxAll links x i = ∑ i ∈ s, c i * x i := by
  induction links generalizing x with
  | nil => rfl
  | cons link rest ih =>
    rw [relaxAll_cons, ih (fun other hother => h other (List.mem_cons_of_mem _ hother))
      (fun other hother => hclosed other (List.mem_cons_of_mem _ hother))
      (fun other hother => hbalanced other (List.mem_cons_of_mem _ hother))]
    exact sum_relax (h link List.mem_cons_self) (hclosed link List.mem_cons_self)
      (hbalanced link List.mem_cons_self)

/-! ## Bounds -/

variable [LinearOrder K] [IsStrictOrderedRing K]

/-- Neither end of a link moves past the other. -/
structure Link.Gentle (link : Link ι K) : Prop where
  first : link.firstShare ∈ Set.Icc (0 : K) 1
  second : link.secondShare ∈ Set.Icc (0 : K) 1

theorem relax_mem {s : Set ι} {lo hi : K} (h : link.first ≠ link.second) (hgentle : link.Gentle)
    (hclosed : link.first ∈ s ↔ link.second ∈ s) (hx : ∀ i ∈ s, x i ∈ Set.Icc lo hi) :
    ∀ i ∈ s, link.relax x i ∈ Set.Icc lo hi := by
  intro i hi
  by_cases hfirst : i = link.first
  · subst hfirst
    have hsecond := hx _ (hclosed.1 hi)
    have hmoved := Mixing.blend_mem (x := x link.first) (y := x link.second) hgentle.first.1
      hgentle.first.2
    have hends : Set.uIcc (x link.first) (x link.second) ⊆ Set.Icc lo _ :=
      Set.uIcc_subset_Icc (hx _ hi) hsecond
    have heq : x link.first + link.firstShare * (x link.second - x link.first) =
        link.relax x link.first := by
      rw [relax_first h]
      ring
    exact hends (heq ▸ hmoved)
  · by_cases hsecond : i = link.second
    · subst hsecond
      have hfirst := hx _ (hclosed.2 hi)
      have hmoved := Mixing.blend_mem (x := x link.second) (y := x link.first) hgentle.second.1
        hgentle.second.2
      have hends : Set.uIcc (x link.second) (x link.first) ⊆ Set.Icc lo _ :=
        Set.uIcc_subset_Icc (hx _ hi) hfirst
      have heq : x link.second + link.secondShare * (x link.first - x link.second) =
          link.relax x link.second := by
        rw [relax_second h]
        ring
      exact hends (heq ▸ hmoved)
    · rw [relax_other hfirst hsecond]
      exact hx i hi

/-- **Bounds are kept.** -/
theorem relaxAll_mem {s : Set ι} {lo hi : K} (h : ∀ link ∈ links, link.first ≠ link.second)
    (hgentle : ∀ link ∈ links, link.Gentle) (hclosed : Closed links s)
    (hx : ∀ i ∈ s, x i ∈ Set.Icc lo hi) : ∀ i ∈ s, relaxAll links x i ∈ Set.Icc lo hi := by
  induction links generalizing x with
  | nil => exact hx
  | cons link rest ih =>
    exact ih (fun other hother => h other (List.mem_cons_of_mem _ hother))
      (fun other hother => hgentle other (List.mem_cons_of_mem _ hother))
      (fun other hother => hclosed other (List.mem_cons_of_mem _ hother))
      (relax_mem (h link List.mem_cons_self) (hgentle link List.mem_cons_self)
        (hclosed link List.mem_cons_self) hx)

end Relaxation
