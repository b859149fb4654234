import Mathlib.Algebra.GroupWithZero.Nat
import Mathlib.Algebra.Order.BigOperators.Group.List
import Mathlib.Algebra.Order.Group.Nat
import Mathlib.Data.List.Nodup
import Std.Data.TreeMap.Lemmas

/-!
# Sums over ordered maps

`Tally.total` adds up a weight over the entries of a tree map.

* `total_erase`, `total_insert` — what one entry contributes.
* `total_map`, `total_map_le` — the total of a map rewritten entry by entry.
-/

namespace Tally

variable {α β γ : Type} [Ord α]

/-- The sum of a weight over the entries of a map. -/
def total (weight : β → ℕ) (m : Std.TreeMap α β) : ℕ := (m.toList.map fun p => weight p.2).sum

variable {weight : β → ℕ} {m : Std.TreeMap α β} {k : α} {v : β}

/-- The total of a map rewritten entry by entry. -/
theorem total_map (f : α → γ → β) (m : Std.TreeMap α γ) :
    total weight (m.map f) = (m.toList.map fun p => weight (f p.1 p.2)).sum := by
  unfold total
  rw [Std.TreeMap.toList_map, List.map_map]
  rfl

/-- Entries that get no heavier do not make the total larger. -/
theorem total_map_le {f : α → β → β} (hf : ∀ k v, weight (f k v) ≤ weight v) (m : Std.TreeMap α β) :
    total weight (m.map f) ≤ total weight m := by
  rw [total_map]
  exact List.sum_le_sum fun p _ => hf p.1 p.2

variable [Std.TransOrd α] [Std.LawfulEqOrd α]

theorem nodup_toList (m : Std.TreeMap α β) : m.toList.Nodup := by
  refine m.distinct_keys_toList.imp fun {a b} hne heq => hne ?_
  rw [heq]
  exact Std.ReflCmp.compare_self

theorem mem_toList_erase {p : α × β} : p ∈ (m.erase k).toList ↔ p ∈ m.toList ∧ p.1 ≠ k := by
  obtain ⟨a, b⟩ := p
  rw [Std.TreeMap.mem_toList_iff_getElem?_eq_some, Std.TreeMap.mem_toList_iff_getElem?_eq_some,
    Std.TreeMap.getElem?_erase]
  by_cases h : k = a
  · simp [h]
  · simp [h, Ne.symm h]

/-- What a present entry contributes. -/
theorem total_erase (h : m[k]? = some v) : total weight m = weight v + total weight (m.erase k) := by
  have hmem : (k, v) ∉ (m.erase k).toList := fun hk => (mem_toList_erase.1 hk).2 rfl
  have hperm : m.toList.Perm ((k, v) :: (m.erase k).toList) := by
    rw [List.perm_ext_iff_of_nodup (nodup_toList m)
      (List.nodup_cons.2 ⟨hmem, nodup_toList _⟩)]
    rintro ⟨a, b⟩
    rw [List.mem_cons, mem_toList_erase, Std.TreeMap.mem_toList_iff_getElem?_eq_some]
    constructor
    · intro hab
      by_cases ha : a = k
      · rw [ha, h] at hab
        cases hab
        exact .inl (by rw [ha])
      · exact .inr ⟨hab, ha⟩
    · rintro (heq | ⟨hab, -⟩)
      · cases heq
        exact h
      · exact hab
  unfold total
  rw [(hperm.map _).sum_eq, List.map_cons, List.sum_cons]

theorem erase_of_none (h : m[k]? = none) : total weight (m.erase k) = total weight m := by
  have hperm : (m.erase k).toList.Perm m.toList := by
    rw [List.perm_ext_iff_of_nodup (nodup_toList _) (nodup_toList m)]
    rintro ⟨a, b⟩
    rw [mem_toList_erase, Std.TreeMap.mem_toList_iff_getElem?_eq_some]
    refine ⟨fun hab => hab.1, fun hab => ⟨hab, ?_⟩⟩
    rintro rfl
    rw [h] at hab
    cases hab
  unfold total
  rw [(hperm.map _).sum_eq]

/-- What an entry that is put in contributes. -/
theorem total_insert : total weight (m.insert k v) = weight v + total weight (m.erase k) := by
  have hself : (m.insert k v)[k]? = some v := by simp
  rw [total_erase hself]
  have hperm : ((m.insert k v).erase k).toList.Perm (m.erase k).toList := by
    rw [List.perm_ext_iff_of_nodup (nodup_toList _) (nodup_toList _)]
    rintro ⟨a, b⟩
    rw [mem_toList_erase, mem_toList_erase, Std.TreeMap.mem_toList_iff_getElem?_eq_some,
      Std.TreeMap.mem_toList_iff_getElem?_eq_some, Std.TreeMap.getElem?_insert]
    refine and_congr_left fun ha => ?_
    rw [if_neg]
    simpa using Ne.symm ha
  unfold total
  rw [(hperm.map _).sum_eq]

end Tally
