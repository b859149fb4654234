import Mathlib.Data.List.Nodup
import Mathlib.Logic.Function.Basic

/-!
# Lists with back indexes

A list whose members know their own position: `BackIndexed l index` says that
`index` is the inverse of reading the list.  Such a list has no duplicates, and
it is maintained in constant time:

* `BackIndexed.push` — a new member goes to the end;
* `BackIndexed.swapRemove` — the last member takes the place of one that leaves,
  as `Vec::swap_remove` does.
-/

/-- `Vec::swap_remove`, as the list it leaves. -/
def swapRemove {α : Type} (list : List α) (index : Nat) : List α :=
  match list.getLast? with
  | none => list
  | some last => (list.set index last).dropLast

theorem getElem?_swapRemove {α : Type} (l : List α) (i j : Nat) :
    (swapRemove l i)[j]? =
      if j + 1 < l.length then (if j = i then l.getLast? else l[j]?) else none := by
  unfold swapRemove
  rcases hlast : l.getLast? with _ | last
  · rw [List.getLast?_eq_none_iff] at hlast
    subst hlast
    simp
  · dsimp only
    rw [List.getElem?_dropLast, List.length_set]
    by_cases hj : j < l.length - 1
    · rw [if_pos hj, if_pos (by omega), List.getElem?_set]
      by_cases hij : i = j
      · rw [if_pos hij, if_pos (by omega), if_pos hij.symm]
      · rw [if_neg hij, if_neg (Ne.symm hij)]
    · rw [if_neg hj, if_neg (by omega)]

/-- `index` gives each member of the list its position, and nothing to others. -/
def BackIndexed {α : Type} (l : List α) (index : α → Option Nat) : Prop :=
  ∀ i a, l[i]? = some a ↔ index a = some i

namespace BackIndexed

variable {α : Type} {l : List α} {index : α → Option Nat}

theorem nil : BackIndexed ([] : List α) fun _ => none := by
  intro i a
  simp

theorem nodup (h : BackIndexed l index) : l.Nodup := by
  rw [List.nodup_iff_getElem?_ne_getElem?]
  intro i j hij hj heq
  rw [List.getElem?_eq_getElem hj] at heq
  have hi := (h i _).1 heq
  rw [(h j _).1 (List.getElem?_eq_getElem hj)] at hi
  exact absurd (Option.some.inj hi) (by omega)

theorem mem_iff (h : BackIndexed l index) {a : α} : a ∈ l ↔ (index a).isSome := by
  rw [List.mem_iff_getElem?, Option.isSome_iff_exists]
  exact exists_congr fun i => h i a

theorem lt_length (h : BackIndexed l index) {a : α} {i : Nat} (ha : index a = some i) :
    i < l.length :=
  (List.getElem?_eq_some_iff.1 ((h i a).2 ha)).1

theorem congr (h : BackIndexed l index) {index' : α → Option Nat} (hindex : ∀ a, index' a = index a) :
    BackIndexed l index' := by
  intro i a
  rw [hindex a]
  exact h i a

variable [DecidableEq α]

theorem push (h : BackIndexed l index) {a : α} (ha : index a = none) :
    BackIndexed (l ++ [a]) (Function.update index a (some l.length)) := by
  intro i b
  by_cases hb : b = a
  · subst hb
    rw [Function.update_self]
    constructor
    · intro hget
      have hlt : i < l.length + 1 := by simpa using (List.getElem?_eq_some_iff.1 hget).1
      by_cases hi : i = l.length
      · rw [hi]
      · rw [List.getElem?_append_left (by omega), h i b, ha] at hget
        cases hget
    · intro heq
      cases heq
      simp
  · rw [Function.update_of_ne hb, ← h i b]
    by_cases hi : i < l.length
    · rw [List.getElem?_append_left hi]
    · rw [List.getElem?_append_right (by omega), List.getElem?_eq_none (by omega : l.length ≤ i)]
      rcases hsub : i - l.length with _ | n <;> simp [Ne.symm hb]

/-- The indexes after a member left: the last member has taken its place. -/
def removed (l : List α) (index : α → Option Nat) (a : α) (i : Nat) : α → Option Nat :=
  Function.update
    (match (swapRemove l i)[i]? with
    | some moved => Function.update index moved (some i)
    | none => index) a none

theorem removed_apply (h : BackIndexed l index) {a : α} {i : Nat} (ha : index a = some i) (b : α) :
    removed l index a i b =
      if b = a then none else if l.getLast? = some b then some i else index b := by
  have hi := h.lt_length ha
  unfold removed
  by_cases hb : b = a
  · rw [if_pos hb, hb, Function.update_self]
  · rw [if_neg hb, Function.update_of_ne hb, getElem?_swapRemove]
    by_cases hlast : i + 1 < l.length
    · rw [if_pos hlast, if_pos rfl]
      rcases hgot : l.getLast? with _ | last
      · rw [List.getLast?_eq_none_iff] at hgot
        simp [hgot] at hi
      · dsimp only
        by_cases hlb : b = last
        · rw [hlb, Function.update_self, if_pos rfl]
        · rw [Function.update_of_ne hlb, if_neg fun heq => hlb (Option.some.inj heq).symm]
    · rw [if_neg hlast]
      have hmem := (h i a).2 ha
      have hlen : i = l.length - 1 := by omega
      rw [if_neg]
      intro heq
      rw [List.getLast?_eq_getElem?, ← hlen, hmem] at heq
      exact hb (Option.some.inj heq).symm

/-- The last member takes the place of one that leaves. -/
theorem remove (h : BackIndexed l index) {a : α} {i : Nat} (ha : index a = some i) :
    BackIndexed (swapRemove l i) (removed l index a i) := by
  have hi := h.lt_length ha
  intro j b
  rw [h.removed_apply ha, getElem?_swapRemove, List.getLast?_eq_getElem?]
  have hget := (h i a).2 ha
  by_cases hb : b = a
  · subst hb
    rw [if_pos rfl]
    constructor
    · intro hj
      split at hj
      · split at hj
        · -- the last member is not the one that leaves: it sits behind it
          next hlt heq =>
          have hsame := (h _ b).1 hj
          rw [ha] at hsame
          exact absurd (Option.some.inj hsame) (by omega)
        · next hlt hne =>
          have hsame := (h _ b).1 hj
          rw [ha] at hsame
          exact absurd (Option.some.inj hsame).symm hne
      · cases hj
    · intro hj
      cases hj
  · rw [if_neg hb]
    by_cases hlast : l[l.length - 1]? = some b
    · rw [if_pos hlast]
      have hindex := (h _ b).1 hlast
      have hne : i ≠ l.length - 1 := by
        intro heq
        rw [← heq, hget] at hlast
        exact hb (Option.some.inj hlast).symm
      constructor
      · intro hj
        split at hj
        · split at hj
          · next heq => rw [heq]
          · next hlt hne' =>
            have hsame := (h _ b).1 hj
            rw [hindex] at hsame
            exact absurd (Option.some.inj hsame) (by omega)
        · cases hj
      · intro hj
        cases hj
        rw [if_pos (by omega), if_pos rfl, hlast]
    · rw [if_neg hlast]
      constructor
      · intro hj
        split at hj
        · split at hj
          · exact absurd hj hlast
          · exact (h j b).1 hj
        · cases hj
      · intro hj
        have hlt := h.lt_length hj
        have hgot := (h j b).2 hj
        have hne : j ≠ l.length - 1 := by
          rintro rfl
          exact hlast hgot
        have hne' : j ≠ i := by
          rintro rfl
          rw [hget] at hgot
          exact hb (Option.some.inj hgot).symm
        rw [if_pos (by omega), if_neg hne', hgot]

end BackIndexed
