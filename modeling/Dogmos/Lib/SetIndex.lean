import Std.Data.TreeMap.Lemmas
import Std.Data.TreeSet.Lemmas
import Mathlib.Tactic.Common

/-!
# Maps to sets

An index from keys to sets of members, kept as a map without empty sets.
`Members` is the relation such a map stands for and `Tight` says that no set in
it is empty.  What the usual updates do to the relation:

* `members_insert`, `members_erase` — the set of one key is replaced or dropped;
* `members_link`, `tight_link` — one member is added;
* `members_unlink`, `tight_unlink` — one member is taken out, and its key with the
  last one.
-/

namespace SetIndex

variable {κ α : Type} [Ord κ] [Ord α]

/-- The member is in the set of the key. -/
def Members (map : Std.TreeMap κ (Std.TreeSet α)) (key : κ) (member : α) : Prop :=
  ∃ members, map[key]? = some members ∧ member ∈ members

/-- No set of the map is empty. -/
def Tight (map : Std.TreeMap κ (Std.TreeSet α)) : Prop :=
  ∀ (key : κ) (members : Std.TreeSet α), map[key]? = some members → members.isEmpty = false

variable {map : Std.TreeMap κ (Std.TreeSet α)} {key other : κ} {member a : α}
  {members : Std.TreeSet α}

theorem not_members_empty [Std.TransOrd κ] : ¬Members (∅ : Std.TreeMap κ (Std.TreeSet α)) key member := by
  rintro ⟨members, hmembers, -⟩
  rw [Std.TreeMap.getElem?_emptyc] at hmembers
  cases hmembers

theorem tight_empty [Std.TransOrd κ] : Tight (∅ : Std.TreeMap κ (Std.TreeSet α)) := by
  intro key members hmembers
  rw [Std.TreeMap.getElem?_emptyc] at hmembers
  cases hmembers

theorem members_iff_of_getElem? (h : map[key]? = some members) :
    Members map key member ↔ member ∈ members := by
  refine ⟨?_, fun hmember => ⟨members, h, hmember⟩⟩
  rintro ⟨found, hfound, hmember⟩
  rw [h] at hfound
  cases hfound
  exact hmember

theorem not_members_of_none (h : map[key]? = none) : ¬Members map key member := by
  rintro ⟨found, hfound, -⟩
  rw [h] at hfound
  cases hfound

/-- A key of a map without empty sets has a member. -/
theorem Tight.exists_members [Std.TransOrd α] (h : Tight map) (hkey : map[key]? = some members) :
    ∃ member, Members map key member := by
  have hsome := h key members hkey
  obtain ⟨member, hmember⟩ := Std.TreeSet.isEmpty_eq_false_iff_exists_mem.1 hsome
  exact ⟨member, members, hkey, hmember⟩

section Keys

variable [Std.TransOrd κ]

theorem tight_insert (h : Tight map) (hmembers : members.isEmpty = false) :
    Tight (map.insert key members) := by
  intro other found hfound
  rw [Std.TreeMap.getElem?_insert] at hfound
  split at hfound
  · cases hfound
    exact hmembers
  · exact h other found hfound

theorem tight_erase (h : Tight map) : Tight (map.erase key) := by
  intro other found hfound
  rw [Std.TreeMap.getElem?_erase] at hfound
  split at hfound
  · cases hfound
  · exact h other found hfound

variable [Std.LawfulEqOrd κ]

theorem members_insert (map : Std.TreeMap κ (Std.TreeSet α)) (key : κ) (members : Std.TreeSet α) :
    Members (map.insert key members) other a ↔
      (other = key ∧ a ∈ members) ∨ (other ≠ key ∧ Members map other a) := by
  by_cases hother : other = key
  · subst hother
    rw [members_iff_of_getElem? Std.TreeMap.getElem?_insert_self]
    simp
  · have hkept : (map.insert key members)[other]? = map[other]? := by
      rw [Std.TreeMap.getElem?_insert, if_neg fun heq => ?_]
      exact hother (Std.LawfulEqCmp.compare_eq_iff_eq.1 heq).symm
    unfold Members
    rw [hkept]
    simp [hother]

theorem members_erase (map : Std.TreeMap κ (Std.TreeSet α)) (key : κ) :
    Members (map.erase key) other a ↔ other ≠ key ∧ Members map other a := by
  by_cases hother : other = key
  · subst hother
    refine ⟨fun h => absurd h (not_members_of_none Std.TreeMap.getElem?_erase_self), fun h => ?_⟩
    exact absurd rfl h.1
  · have hkept : (map.erase key)[other]? = map[other]? := by
      rw [Std.TreeMap.getElem?_erase, if_neg fun heq => ?_]
      exact hother (Std.LawfulEqCmp.compare_eq_iff_eq.1 heq).symm
    unfold Members
    rw [hkept]
    simp [hother]

end Keys

/-! ## One member more -/

variable [Std.TransOrd κ] [Std.TransOrd α]

/-- The map with a member added to the set of a key. -/
def link (map : Std.TreeMap κ (Std.TreeSet α)) (key : κ) (member : α) :
    Std.TreeMap κ (Std.TreeSet α) :=
  map.insert key ((map[key]?.getD ∅).insert member)

theorem members_link [Std.LawfulEqOrd κ] [Std.LawfulEqOrd α] (map : Std.TreeMap κ (Std.TreeSet α)) (key : κ) (member : α) :
    Members (link map key member) other a ↔ (other = key ∧ a = member) ∨ Members map other a := by
  unfold link
  rw [members_insert, Std.TreeSet.mem_insert, Std.LawfulEqCmp.compare_eq_iff_eq]
  by_cases hother : other = key
  · subst hother
    rcases hkey : map[other]? with _ | members
    · simp [not_members_of_none hkey, eq_comm]
    · simp [members_iff_of_getElem? hkey, eq_comm]
  · simp [hother]

theorem tight_link (h : Tight map) : Tight (link map key member) :=
  tight_insert h Std.TreeSet.isEmpty_insert

/-! ## One member less -/

/-- The map with a member taken out of the set of a key, and the key with its last member. -/
def unlink (map : Std.TreeMap κ (Std.TreeSet α)) (key : κ) (member : α) :
    Std.TreeMap κ (Std.TreeSet α) :=
  match map[key]? with
  | none => map
  | some members =>
    if (members.erase member).isEmpty then map.erase key
    else map.insert key (members.erase member)

theorem members_unlink [Std.LawfulEqOrd κ] [Std.LawfulEqOrd α] (map : Std.TreeMap κ (Std.TreeSet α)) (key : κ) (member : α) :
    Members (unlink map key member) other a ↔
      Members map other a ∧ ¬(other = key ∧ a = member) := by
  unfold unlink
  rcases hkey : map[key]? with _ | members
  · dsimp only
    refine ⟨fun h => ⟨h, fun hsame => ?_⟩, fun h => h.1⟩
    rw [hsame.1] at h
    exact not_members_of_none hkey h
  · dsimp only
    have hmem : ∀ x, x ∈ members.erase member ↔ x ≠ member ∧ x ∈ members := by
      intro x
      rw [Std.TreeSet.mem_erase, ne_eq, Std.LawfulEqCmp.compare_eq_iff_eq, eq_comm]
    have hcases : (other ≠ key ∧ Members map other a) ∨ (other = key ∧ a ∈ members.erase member) ↔
        Members map other a ∧ ¬(other = key ∧ a = member) := by
      by_cases hother : other = key
      · subst hother
        rw [hmem, members_iff_of_getElem? hkey]
        simp [and_comm]
      · simp [hother]
    split
    · next hempty =>
      rw [members_erase, ← hcases]
      refine ⟨.inl, fun h => h.resolve_right fun hlast => ?_⟩
      exact absurd hlast.2 (Std.TreeSet.not_mem_of_isEmpty hempty)
    · rw [members_insert, ← hcases, or_comm]

omit [Std.TransOrd α] in
theorem tight_unlink (h : Tight map) : Tight (unlink map key member) := by
  unfold unlink
  split
  · exact h
  · split
    · exact tight_erase h
    · next hempty => exact tight_insert h (Bool.not_eq_true _ ▸ hempty)

end SetIndex
