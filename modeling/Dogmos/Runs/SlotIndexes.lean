import Dogmos.Core.SlotIndex

/-!
# Slot indexes over whole runs

A slot index is meant to be a map with one live key for each slot: an insertion hides whatever was
in the slot, and clearing forgets everything.  `latest` reads that off the operations themselves.
The index gets there without erasing anything, by epochs, on a table that grows as slots come up;
when the epochs are used up it starts over with an empty table.

* `fresh_run` — every index that is reached is `Fresh`.
* `get_run` — a lookup finds the value of the latest insertion into the slot, if that was under
  the same key and nothing was cleared since.
-/

namespace Dogmos

variable {K V : Type} [SlotKey K]

/-- What is done to a slot index. -/
inductive SlotOp (K V : Type)
  | insert (key : K) (value : V)
  | clear

namespace SlotOp

/-- What a slot holds after the given operations, the last of them first. -/
def latest (slot : Nat) : List (SlotOp K V) → Option (K × V)
  | [] => none
  | .clear :: _ => none
  | .insert key value :: earlier =>
    if SlotKey.slot key = slot then some (key, value) else latest slot earlier

end SlotOp

namespace SlotIndex

/-- One operation. -/
def apply (index : SlotIndex K V) : SlotOp K V → SlotIndex K V
  | .insert key value => index.insert key value
  | .clear => index.clear

/-- A run of operations on a new index. -/
def run (ops : List (SlotOp K V)) : SlotIndex K V := ops.foldl apply new

theorem run_append (ops : List (SlotOp K V)) (op : SlotOp K V) :
    run (ops ++ [op]) = (run ops).apply op := by
  rw [run, List.foldl_append]
  rfl

theorem fresh_apply {index : SlotIndex K V} (h : index.Fresh) (op : SlotOp K V) :
    (index.apply op).Fresh := by
  cases op with
  | insert key value => exact fresh_insert h key value
  | clear => exact fresh_clear h

theorem fresh_run (ops : List (SlotOp K V)) : (run ops).Fresh := by
  induction ops using List.reverseRecOn with
  | nil => exact fresh_new
  | append_singleton earlier op ih =>
    rw [run_append]
    exact fresh_apply ih op

variable [DecidableEq K]

/-- One operation does to a lookup what it does to the latest insertion. -/
theorem get_apply {index : SlotIndex K V} (hfresh : index.Fresh) {earlier : List (SlotOp K V)}
    (hget : ∀ key value,
      index.get key = some value ↔ SlotOp.latest (SlotKey.slot key) earlier = some (key, value))
    (op : SlotOp K V) (key : K) (value : V) :
    (index.apply op).get key = some value ↔
      SlotOp.latest (SlotKey.slot key) (op :: earlier) = some (key, value) := by
  cases op with
  | clear =>
    rw [apply, get_clear hfresh, SlotOp.latest]
    simp
  | insert written content =>
    rw [apply, get_insert, SlotOp.latest]
    by_cases hslot : SlotKey.slot key = SlotKey.slot written
    · rw [if_pos hslot, if_pos hslot.symm]
      by_cases hkey : key = written
      · simp [hkey]
      · simp [hkey, Ne.symm hkey]
    · rw [if_neg hslot, if_neg (Ne.symm hslot)]
      exact hget key value

/-- **A slot index is a map with one live key for each slot**, after every run. -/
theorem get_run (ops : List (SlotOp K V)) (key : K) (value : V) :
    (run ops).get key = some value ↔
      SlotOp.latest (SlotKey.slot key) ops.reverse = some (key, value) := by
  induction ops using List.reverseRecOn generalizing key value with
  | nil => simp [run, SlotOp.latest]
  | append_singleton earlier op ih =>
    rw [run_append, List.reverse_append, List.reverse_singleton, List.singleton_append]
    exact get_apply (fresh_run earlier) ih op key value

end SlotIndex

end Dogmos
