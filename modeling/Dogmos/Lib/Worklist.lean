import Mathlib.Data.List.Nodup

/-!
# Work that is done once

A worker goes through a list of items and leaves out those it skips: the ones it
was told to, and the ones it has already done.  `outstanding skip work` is what it
does, in order.  An item it skips leaves that unchanged
(`outstanding_cons_of_skip`), and an item it does is the next one of it, and is
skipped from then on (`outstanding_cons`).
-/

namespace Worklist

variable {α : Type} [DecidableEq α] {skip skip' : α → Bool} {work : List α} {item : α}

/-- What is done of a list of work: the items that are not skipped, each once. -/
def outstanding (skip : α → Bool) (work : List α) : List α :=
  (work.filter fun item => !skip item).eraseDups

@[simp] theorem outstanding_nil (skip : α → Bool) : outstanding skip [] = [] := rfl

theorem outstanding_cons_of_skip (h : skip item = true) :
    outstanding skip (item :: work) = outstanding skip work := by
  unfold outstanding
  rw [List.filter_cons_of_neg (by simp [h])]

theorem outstanding_cons (h : skip item = false) :
    outstanding skip (item :: work) =
      item :: outstanding (fun other => skip other || decide (other = item)) work := by
  unfold outstanding
  rw [List.filter_cons_of_pos (by simp [h]), List.eraseDups_cons, List.filter_filter]
  congr 2
  refine List.filter_congr fun other _ => ?_
  by_cases hother : other = item
  · simp [hother]
  · simp [hother]

/-- Only what is skipped of the work matters. -/
theorem outstanding_congr (h : ∀ item ∈ work, skip item = skip' item) :
    outstanding skip work = outstanding skip' work := by
  unfold outstanding
  rw [List.filter_congr fun item hitem => by rw [h item hitem]]

theorem mem_outstanding : item ∈ outstanding skip work ↔ item ∈ work ∧ skip item = false := by
  unfold outstanding
  rw [List.mem_eraseDups, List.mem_filter]
  simp

theorem nodup_outstanding (skip : α → Bool) (work : List α) : (outstanding skip work).Nodup := by
  induction work generalizing skip with
  | nil => exact List.nodup_nil
  | cons item rest ih =>
    by_cases h : skip item = true
    · rw [outstanding_cons_of_skip h]
      exact ih skip
    · rw [outstanding_cons (Bool.not_eq_true _ ▸ h), List.nodup_cons]
      refine ⟨?_, ih _⟩
      rw [mem_outstanding]
      simp

end Worklist
