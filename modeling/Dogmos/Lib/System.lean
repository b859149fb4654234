import Mathlib.Tactic.Common

/-!
# Reachable states

A system starts in some state of `init` and takes one step after another, each
named by an operation.  `ReachableWhere` collects the states a run can be in
when every one of its steps meets a condition on the state before the step and
the operation; `Reachable` puts no condition on the steps.

* `ReachableWhere.induct` is the invariant rule: what holds at the start and is
  kept by every step that meets the condition holds in every such state;
* `reachable_run` reads the results of finite lists of operations as such states, `run_append`
  splits a run in two;
* `ReachableWhere.mono` weakens the condition.
-/

namespace System

variable {σ ο : Type}

/-- A run of a list of operations from a state. -/
def run (step : σ → ο → σ) (s : σ) (ops : List ο) : σ := ops.foldl step s

@[simp] theorem run_nil (step : σ → ο → σ) (s : σ) : run step s [] = s := rfl

@[simp] theorem run_cons (step : σ → ο → σ) (s : σ) (o : ο) (ops : List ο) :
    run step s (o :: ops) = run step (step s o) ops := rfl

theorem run_append (step : σ → ο → σ) (s : σ) (ops ops' : List ο) :
    run step s (ops ++ ops') = run step (run step s ops) ops' :=
  List.foldl_append

/-- The states of runs whose every step meets the condition `C`. -/
inductive ReachableWhere (init : σ → Prop) (step : σ → ο → σ) (C : σ → ο → Prop) : σ → Prop
  | start {s : σ} (h : init s) : ReachableWhere init step C s
  | next {s : σ} (o : ο) (h : ReachableWhere init step C s) (hC : C s o) :
      ReachableWhere init step C (step s o)

/-- The states of all runs. -/
def Reachable (init : σ → Prop) (step : σ → ο → σ) : σ → Prop :=
  ReachableWhere init step fun _ _ => True

variable {init : σ → Prop} {step : σ → ο → σ} {C D : σ → ο → Prop} {I : σ → Prop}

/-- **The invariant rule.**  What every start meets and every step that meets the condition
keeps holds in every state of such a run. -/
theorem ReachableWhere.induct (hinit : ∀ s, init s → I s)
    (hstep : ∀ s o, ReachableWhere init step C s → C s o → I s → I (step s o)) {s : σ}
    (h : ReachableWhere init step C s) : I s := by
  induction h with
  | start h => exact hinit _ h
  | next o hr hC ih => exact hstep _ o hr hC ih

theorem Reachable.induct (hinit : ∀ s, init s → I s) (hstep : ∀ s o, I s → I (step s o))
    {s : σ} (h : Reachable init step s) : I s :=
  ReachableWhere.induct hinit (fun s o _ _ hs => hstep s o hs) h

theorem ReachableWhere.mono (hCD : ∀ s o, C s o → D s o) {s : σ}
    (h : ReachableWhere init step C s) : ReachableWhere init step D s := by
  induction h with
  | start h => exact .start h
  | next o _ hC ih => exact .next o ih (hCD _ _ hC)

/-- A run from a state of a run is a run. -/
theorem Reachable.run {s : σ} (h : Reachable init step s) (ops : List ο) :
    Reachable init step (run step s ops) := by
  induction ops generalizing s with
  | nil => exact h
  | cons o rest ih => exact ih (.next o h trivial)

theorem reachable_run {s : σ} (h : init s) (ops : List ο) :
    Reachable init step (run step s ops) :=
  Reachable.run (.start h) ops

end System
