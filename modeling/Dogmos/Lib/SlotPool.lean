import Mathlib.Data.List.Basic
import Mathlib.Logic.Relation
import Mathlib.Tactic.Common

/-!
# Pools of generational slots

A pool hands out slots.  A slot carries a generation, which grows whenever the
slot gets a new payload, so a pair of a slot and a generation names one payload
for good.  Vacant slots wait on a free list; a slot whose generation has reached
its limit leaves the free list without being handed out (`Step.retire`).

* `Sound.step` — the free list holds vacant slots, each once, and occupied slots
  and free slots together stay within the capacity;
* `Full.step` — as long as the next free slot is not exhausted, every vacant slot is on the
  free list;
* `Holds.step`, `Spent.step`, `spent_steps` — a name that stops naming its
  payload never names anything again.
-/

/-- A pool: each slot with its generation and its payload, and the free list. -/
structure SlotPool (α : Type) where
  slots : List (ℕ × Option α)
  free : List ℕ

namespace SlotPool

variable {α : Type} {capacity limit : ℕ} {p q r : SlotPool α} {slot generation : ℕ} {a : α}

/-- The number of occupied slots. -/
def live (p : SlotPool α) : ℕ := p.slots.countP fun entry => entry.2.isSome

/-- The slot and the generation name the payload. -/
def Holds (p : SlotPool α) (slot generation : ℕ) (a : α) : Prop :=
  p.slots[slot]? = some (generation, some a)

/-- The slot and the generation named a payload once and do not any more. -/
def Spent (p : SlotPool α) (slot generation : ℕ) : Prop :=
  ∃ current payload, p.slots[slot]? = some (current, payload) ∧
    (generation < current ∨ generation = current ∧ payload = none)

/-- What can happen to a pool. -/
inductive Step (capacity limit : ℕ) (p : SlotPool α) : SlotPool α → Prop
  | reuse {slot generation : ℕ} (a : α) (hfree : p.free.getLast? = some slot)
      (hslot : p.slots[slot]? = some (generation, none)) :
      Step capacity limit p ⟨p.slots.set slot (generation + 1, some a), p.free.dropLast⟩
  | retire {slot : ℕ} (hfree : p.free.getLast? = some slot)
      (hslot : p.slots[slot]? = some (limit, none)) :
      Step capacity limit p ⟨p.slots, p.free.dropLast⟩
  | append (a : α) (hfree : p.free = []) (hlive : p.live < capacity) :
      Step capacity limit p ⟨p.slots ++ [(1, some a)], p.free⟩
  | rotate {slot generation : ℕ} {a : α} (b : α) (h : p.Holds slot generation a) :
      Step capacity limit p ⟨p.slots.set slot (generation + 1, some b), p.free⟩
  | vacate {slot generation : ℕ} {a : α} (h : p.Holds slot generation a) :
      Step capacity limit p ⟨p.slots.set slot (generation, none), p.free ++ [slot]⟩

/-- A sequence of such steps. -/
abbrev Steps (capacity limit : ℕ) : SlotPool α → SlotPool α → Prop :=
  Relation.ReflTransGen (Step capacity limit)

/-! ## One slot at a time -/

/-- Writing one slot changes the number of occupied slots by what that slot gains. -/
theorem countP_set {β : Type} (f : β → Bool) (l : List β) {i : ℕ} {x : β} (h : l[i]? = some x) (y : β) :
    (l.set i y).countP f + (if f x then 1 else 0) = l.countP f + if f y then 1 else 0 := by
  induction l generalizing i with
  | nil => cases h
  | cons head rest ih =>
    cases i with
    | zero =>
      cases h
      simp only [List.set_cons_zero, List.countP_cons]
      omega
    | succ i =>
      have hrest := ih h
      simp only [List.set_cons_succ, List.countP_cons]
      omega

theorem live_set {entry : ℕ × Option α} (h : p.slots[slot]? = some entry) (entry' : ℕ × Option α)
    (free : List ℕ) :
    (SlotPool.mk (p.slots.set slot entry') free).live + (if entry.2.isSome then 1 else 0) =
      p.live + if entry'.2.isSome then 1 else 0 :=
  countP_set (fun entry : ℕ × Option α => entry.2.isSome) p.slots h entry'

theorem getElem?_set_of_some {β : Type} {l : List β} {i j : ℕ} {x : β} (h : l[i]? = some x) (y : β) :
    (l.set i y)[j]? = if j = i then some y else l[j]? := by
  have hlt := (List.getElem?_eq_some_iff.1 h).1
  rw [List.getElem?_set]
  by_cases hij : i = j
  · rw [if_pos hij, if_pos hlt, if_pos hij.symm]
  · rw [if_neg hij, if_neg (Ne.symm hij)]

theorem dropLast_concat_of_getLast? {l : List ℕ} (h : l.getLast? = some slot) :
    l.dropLast ++ [slot] = l := by
  obtain ⟨rest, rfl⟩ := List.getLast?_eq_some_iff.1 h
  rw [List.dropLast_concat]

/-! ## The free list -/

/-- The free list holds vacant slots, each once, within the capacity. -/
structure Sound (capacity : ℕ) (p : SlotPool α) : Prop where
  nodup : p.free.Nodup
  vacant : ∀ slot ∈ p.free, ∃ generation, p.slots[slot]? = some (generation, none)
  bounded : p.live + p.free.length ≤ capacity

/-- The slot the free list hands out next has a generation that cannot grow any more. -/
def Exhausted (limit : ℕ) (p : SlotPool α) : Prop :=
  ∃ slot, p.free.getLast? = some slot ∧ p.slots[slot]? = some (limit, none)

/-- Every vacant slot is on the free list. -/
def Full (p : SlotPool α) : Prop :=
  ∀ slot generation, p.slots[slot]? = some (generation, none) → slot ∈ p.free

theorem sound_empty : Sound capacity (⟨[], []⟩ : SlotPool α) :=
  ⟨List.nodup_nil, by simp, by simp [live]⟩

theorem full_empty : Full (⟨[], []⟩ : SlotPool α) := by
  intro slot generation h
  simp at h

theorem Sound.step (hp : Sound capacity p) (h : Step capacity limit p q) : Sound capacity q := by
  cases h with
  | @reuse slot generation a hfree hslot =>
    have hsplit := dropLast_concat_of_getLast? hfree
    have hnodup := hp.nodup
    rw [← hsplit, List.nodup_append] at hnodup
    have hlive := live_set hslot (generation + 1, some a) p.free.dropLast
    have hlength : p.free.length = p.free.dropLast.length + 1 := by
      rw [← hsplit]
      simp
    have hbounded := hp.bounded
    simp only [Option.isSome_none, Bool.false_eq_true, if_false, Option.isSome_some, if_true] at hlive
    refine ⟨hnodup.1, ?_, by dsimp only; omega⟩
    intro other hother
    have hne : other ≠ slot := hnodup.2.2 other hother slot (List.mem_singleton_self _)
    obtain ⟨g, hg⟩ := hp.vacant other (List.dropLast_subset _ hother)
    refine ⟨g, ?_⟩
    dsimp only
    rw [getElem?_set_of_some hslot, if_neg hne]
    exact hg
  | retire hfree hslot =>
    have hbounded := hp.bounded
    refine ⟨hp.nodup.sublist (List.dropLast_sublist _), ?_, ?_⟩
    · exact fun other hother => hp.vacant other (List.dropLast_subset _ hother)
    · show p.live + p.free.dropLast.length ≤ capacity
      rw [List.length_dropLast]
      omega
  | append a hfree hlive =>
    refine ⟨hp.nodup, ?_, ?_⟩
    · intro other hother
      rw [hfree] at hother
      cases hother
    · have hgrown : (SlotPool.mk (p.slots ++ [(1, some a)]) p.free).live = p.live + 1 := by
        simp [live, List.countP_append]
      rw [hgrown, hfree]
      exact hlive
  | @rotate slot generation a b hholds =>
    have hlive := live_set hholds (generation + 1, some b) p.free
    have hbounded := hp.bounded
    simp only [Option.isSome_some, if_true] at hlive
    refine ⟨hp.nodup, ?_, by dsimp only; omega⟩
    intro other hother
    obtain ⟨g, hg⟩ := hp.vacant other hother
    refine ⟨g, ?_⟩
    have hne : other ≠ slot := by
      rintro rfl
      rw [Holds, hg] at hholds
      cases hholds
    dsimp only
    rw [getElem?_set_of_some hholds, if_neg hne]
    exact hg
  | @vacate slot generation a hholds =>
    have hlive := live_set hholds (generation, none) (p.free ++ [slot])
    have hbounded := hp.bounded
    have hnew : slot ∉ p.free := by
      intro hmem
      obtain ⟨g, hg⟩ := hp.vacant slot hmem
      rw [Holds, hg] at hholds
      cases hholds
    simp only [Option.isSome_some, if_true, Option.isSome_none, Bool.false_eq_true, if_false] at hlive
    refine ⟨?_, ?_, ?_⟩
    · rw [List.nodup_append]
      refine ⟨hp.nodup, by simp, ?_⟩
      rintro other hother _ hslot rfl
      rw [List.mem_singleton.1 hslot] at hother
      exact hnew hother
    · intro other hother
      dsimp only
      rw [getElem?_set_of_some hholds]
      by_cases hne : other = slot
      · exact ⟨generation, if_pos hne⟩
      · obtain hmem | hmem := List.mem_append.1 hother
        · obtain ⟨g, hg⟩ := hp.vacant other hmem
          exact ⟨g, by rw [if_neg hne, hg]⟩
        · exact absurd (List.mem_singleton.1 hmem) hne
    · rw [List.length_append, List.length_singleton]
      omega

theorem Full.rotate (hp : Full p) (b : α) (hholds : p.Holds slot generation a) :
    Full ⟨p.slots.set slot (generation + 1, some b), p.free⟩ := by
  intro other g hother
  dsimp only at hother
  rw [getElem?_set_of_some hholds] at hother
  by_cases hne : other = slot
  · rw [if_pos hne] at hother
    cases hother
  · rw [if_neg hne] at hother
    exact hp other g hother

theorem Full.vacate (hp : Full p) (hholds : p.Holds slot generation a) :
    Full ⟨p.slots.set slot (generation, none), p.free ++ [slot]⟩ := by
  intro other g hother
  dsimp only at hother
  rw [getElem?_set_of_some hholds] at hother
  by_cases hne : other = slot
  · rw [hne]
    exact List.mem_append_right _ (List.mem_singleton_self _)
  · rw [if_neg hne] at hother
    exact List.mem_append_left _ (hp other g hother)

/-- A step keeps the list full unless it retires an exhausted slot. -/
theorem Full.step (hp : Full p) (h : Step capacity limit p q) (hnext : ¬Exhausted limit p) :
    Full q := by
  cases h with
  | @reuse slot generation a hfree hslot =>
    intro other g hother
    have hsplit := dropLast_concat_of_getLast? hfree
    dsimp only at hother
    rw [getElem?_set_of_some hslot] at hother
    by_cases hne : other = slot
    · rw [if_pos hne] at hother
      cases hother
    · rw [if_neg hne] at hother
      have hmem := hp other g hother
      rw [← hsplit, List.mem_append, List.mem_singleton] at hmem
      exact hmem.resolve_right hne
  | retire hfree hslot => exact absurd ⟨_, hfree, hslot⟩ hnext
  | append a hfree hlive =>
    intro other g hother
    dsimp only at hother
    rw [List.getElem?_append] at hother
    split at hother
    · exact hp other g hother
    · have hentry := List.mem_of_getElem? hother
      rw [List.mem_singleton] at hentry
      cases hentry
  | rotate b hholds => exact hp.rotate b hholds
  | vacate hholds => exact hp.vacate hholds

/-! ## Names -/

theorem Holds.not_spent (h : p.Holds slot generation a) : ¬p.Spent slot generation := by
  rintro ⟨current, payload, hslot, hlater⟩
  rw [Holds] at h
  rw [h] at hslot
  cases hslot
  rcases hlater with hlt | ⟨-, hnone⟩
  · exact absurd hlt (Nat.lt_irrefl _)
  · cases hnone

/-- A slot that is written with a generation at least as high leaves spent names spent. -/
theorem Spent.set {entry : ℕ × Option α} {i : ℕ} (h : p.Spent slot generation)
    (hi : p.slots[i]? = some entry) (entry' : ℕ × Option α)
    (hgrow : entry.1 < entry'.1 ∨ entry.1 = entry'.1 ∧ entry'.2 = none)
    (free : List ℕ) : (SlotPool.mk (p.slots.set i entry') free).Spent slot generation := by
  obtain ⟨current, payload, hslot, hlater⟩ := h
  by_cases hne : slot = i
  · subst hne
    rw [hi] at hslot
    cases hslot
    refine ⟨entry'.1, entry'.2, ?_, ?_⟩
    · dsimp only
      rw [getElem?_set_of_some hi, if_pos rfl]
    · dsimp only at hgrow hlater ⊢
      rcases hgrow with hlt | ⟨heq, hnone⟩
      · exact .inl (by omega)
      · rcases hlater with hlt | ⟨hsame, -⟩
        · exact .inl (by omega)
        · exact .inr ⟨by omega, hnone⟩
  · refine ⟨current, payload, ?_, hlater⟩
    dsimp only
    rw [getElem?_set_of_some hi, if_neg hne]
    exact hslot

/-- **A spent name stays spent.** -/
theorem Spent.step (h : p.Spent slot generation) (hstep : Step capacity limit p q) :
    q.Spent slot generation := by
  cases hstep with
  | reuse a hfree hslot => exact h.set hslot _ (.inl (Nat.lt_succ_self _)) _
  | retire hfree hslot => exact h
  | append a hfree hlive =>
    obtain ⟨current, payload, hslot, hlater⟩ := h
    refine ⟨current, payload, ?_, hlater⟩
    dsimp only
    rw [List.getElem?_append_left (List.getElem?_eq_some_iff.1 hslot).1]
    exact hslot
  | rotate b hholds => exact h.set hholds _ (.inl (Nat.lt_succ_self _)) _
  | @vacate i g b hholds => exact h.set hholds (g, none) (.inr ⟨rfl, rfl⟩) _

/-- A name keeps its payload until it is spent. -/
theorem Holds.step (h : p.Holds slot generation a) (hstep : Step capacity limit p q) :
    q.Holds slot generation a ∨ q.Spent slot generation := by
  have hset : ∀ {i : ℕ} {entry entry' : ℕ × Option α} (free : List ℕ), p.slots[i]? = some entry →
      (entry.1 < entry'.1 ∨ entry.1 = entry'.1 ∧ entry'.2 = none) →
      (SlotPool.mk (p.slots.set i entry') free).Holds slot generation a ∨
        (SlotPool.mk (p.slots.set i entry') free).Spent slot generation := by
    intro i entry entry' free hi hgrow
    by_cases hne : slot = i
    · subst hne
      rw [Holds] at h
      rw [h] at hi
      cases hi
      refine .inr ⟨entry'.1, entry'.2, ?_, hgrow⟩
      dsimp only
      rw [getElem?_set_of_some h, if_pos rfl]
    · refine .inl ?_
      show (p.slots.set i entry')[slot]? = _
      rw [getElem?_set_of_some hi, if_neg hne]
      exact h
  cases hstep with
  | reuse b hfree hslot => exact hset _ hslot (.inl (Nat.lt_succ_self _))
  | retire hfree hslot => exact .inl h
  | append b hfree hlive =>
    refine .inl ?_
    show (p.slots ++ [(1, some b)])[slot]? = _
    rw [List.getElem?_append_left (List.getElem?_eq_some_iff.1 h).1]
    exact h
  | rotate b hholds => exact hset _ hholds (.inl (Nat.lt_succ_self _))
  | vacate hholds => exact hset _ hholds (.inr ⟨rfl, rfl⟩)

theorem spent_steps (hp : p.Spent slot generation) (h : Steps capacity limit p q) :
    q.Spent slot generation := by
  induction h with
  | refl => exact hp
  | tail _ hstep ih => exact ih.step hstep

theorem holds_steps (hp : p.Holds slot generation a) (h : Steps capacity limit p q) :
    q.Holds slot generation a ∨ q.Spent slot generation := by
  induction h with
  | refl => exact .inl hp
  | tail _ hstep ih =>
    rcases ih with hholds | hspent
    · exact hholds.step hstep
    · exact .inr (hspent.step hstep)

/-- **A name that stopped naming its payload never names one again.** -/
theorem not_holds_of_lost {b : α} (hp : p.Holds slot generation a) (hpq : Steps capacity limit p q)
    (hlost : ¬q.Holds slot generation a) (hqr : Steps capacity limit q r) :
    ¬r.Holds slot generation b := by
  intro hr
  rcases holds_steps hp hpq with hholds | hspent
  · exact hlost hholds
  · exact hr.not_spent (spent_steps hspent hqr)

end SlotPool
