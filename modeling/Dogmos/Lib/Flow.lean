import Mathlib.Algebra.BigOperators.Group.Finset.Basic
import Mathlib.Algebra.BigOperators.Group.Finset.Piecewise
import Mathlib.Algebra.BigOperators.Group.Finset.Sigma
import Mathlib.Algebra.Order.BigOperators.Group.Finset
import Mathlib.Tactic.Abel

/-!
# Antisymmetric flows

A flow gives every pair of vertices an amount, and the amount one way is the opposite of the amount
the other way.  What a vertex sends out in all is its net outflow, and over all vertices that adds
up to nothing.

* `netOut_send` — sending an amount from one vertex to another.
* `sum_netOut` — nothing leaves the graph.
* `netOut_of_others` — the net outflow of one vertex is known from that of the others.
-/

namespace Flow

open Finset

variable {V A : Type} [AddCommGroup A]

/-- The amount one way is the opposite of the amount the other way. -/
def Antisymmetric (flow : V → V → A) : Prop := ∀ x y, flow x y = -flow y x

/-- What a vertex sends to the vertices of a graph, less what it gets. -/
def netOut (vertices : Finset V) (flow : V → V → A) (x : V) : A := ∑ y ∈ vertices, flow x y

variable [DecidableEq V]

/-- An amount sent from `u` to `v` on top of a flow. -/
def send (flow : V → V → A) (u v : V) (amount : A) (x y : V) : A :=
  if x = u ∧ y = v then flow x y + amount
  else if x = v ∧ y = u then flow x y - amount
  else flow x y

section Send

variable {flow : V → V → A} {u v : V}

theorem Antisymmetric.send (h : Antisymmetric flow) (huv : u ≠ v) (amount : A) :
    Antisymmetric (send flow u v amount) := by
  intro x y
  have hxy := h x y
  unfold Flow.send
  by_cases hto : x = u ∧ y = v
  · obtain ⟨rfl, rfl⟩ := hto
    simp [huv.symm, hxy]
    abel
  · by_cases hfrom : x = v ∧ y = u
    · obtain ⟨rfl, rfl⟩ := hfrom
      simp [huv.symm, hxy]
      abel
    · rw [if_neg hto, if_neg hfrom, if_neg fun h => hfrom h.symm, if_neg fun h => hto h.symm, hxy]

theorem netOut_send {vertices : Finset V} (hu : u ∈ vertices) (hv : v ∈ vertices) (huv : u ≠ v)
    (amount : A) (x : V) : netOut vertices (Flow.send flow u v amount) x =
      netOut vertices flow x + (if x = u then amount else if x = v then -amount else 0) := by
  unfold netOut Flow.send
  have hpoint : ∀ y ∈ vertices,
      (if x = u ∧ y = v then flow x y + amount
        else if x = v ∧ y = u then flow x y - amount else flow x y) =
      flow x y + ((if y = v then if x = u then amount else 0 else 0) +
        (if y = u then if x = v then -amount else 0 else 0)) := by
    intro y _
    by_cases hto : x = u ∧ y = v
    · obtain ⟨rfl, rfl⟩ := hto
      simp [huv.symm]
    · by_cases hfrom : x = v ∧ y = u
      · obtain ⟨rfl, rfl⟩ := hfrom
        simp [huv, huv.symm, sub_eq_add_neg]
      · rw [if_neg hto, if_neg hfrom]
        simp only [not_and] at hto hfrom
        have hto' : (if y = v then if x = u then amount else 0 else 0) = 0 := by
          split
          · next hy => rw [if_neg fun hx => hto hx hy]
          · rfl
        have hfrom' : (if y = u then if x = v then -amount else 0 else 0) = 0 := by
          split
          · next hy => rw [if_neg fun hx => hfrom hx hy]
          · rfl
        rw [hto', hfrom', add_zero, add_zero]
  rw [sum_congr rfl hpoint, sum_add_distrib, sum_add_distrib, sum_ite_eq', sum_ite_eq',
    if_pos hv, if_pos hu]
  congr 1
  by_cases hx : x = u
  · subst hx
    simp [huv]
  · simp [hx]

end Send

/-! ## Over all vertices -/

variable [LinearOrder A] [IsOrderedAddMonoid A] {flow : V → V → A} {vertices : Finset V}

omit [DecidableEq V] in
theorem sum_netOut (h : Antisymmetric flow) (vertices : Finset V) :
    ∑ x ∈ vertices, netOut vertices flow x = 0 := by
  have hneg : ∑ x ∈ vertices, netOut vertices flow x =
      -∑ x ∈ vertices, netOut vertices flow x := by
    unfold netOut
    calc ∑ x ∈ vertices, ∑ y ∈ vertices, flow x y
        = ∑ y ∈ vertices, ∑ x ∈ vertices, flow x y := sum_comm
      _ = ∑ y ∈ vertices, ∑ x ∈ vertices, -flow y x :=
          sum_congr rfl fun y _ => sum_congr rfl fun x _ => h x y
      _ = -∑ y ∈ vertices, ∑ x ∈ vertices, flow y x := by
          rw [← sum_neg_distrib]
          exact sum_congr rfl fun y _ => sum_neg_distrib _
  exact self_eq_neg.1 hneg

/-- Amounts that add up to nothing and are the net outflows of all vertices but one are those of
all. -/
theorem netOut_of_others (h : Antisymmetric flow) {amounts : V → A} {x : V} (hx : x ∈ vertices)
    (hothers : ∀ y ∈ vertices, y ≠ x → netOut vertices flow y = amounts y)
    (hsum : ∑ y ∈ vertices, amounts y = 0) : netOut vertices flow x = amounts x := by
  have hout := sum_netOut h vertices
  rw [← add_sum_erase _ _ hx] at hout hsum
  rw [sum_congr rfl fun y hy => hothers y (mem_of_mem_erase hy) (ne_of_mem_erase hy)] at hout
  exact add_right_cancel (hout.trans hsum.symm)

end Flow
