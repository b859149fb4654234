import Dogmos.Exact.Amounts
import Dogmos.Legacy.Mixture
import Mathlib.Tactic.Linarith

/-!
# Amounts of a legacy mixture in exact arithmetic

What the methods of a legacy mixture do with the amount of one gas.  A gas past the end of the
vector has the amount zero, so the length of the vector drops out of every statement here.

* `getMoles_garbageCollect` — truncating the vector loses nothing that collecting did not zero.
* `Collects` — what is stored of an amount: all of it, or nothing of a trace.
* `run_adjustMoles` — one delta is added, or refused because the sum is too large.
-/

namespace Dogmos

namespace Legacy

open Exec Mixture

/-! ## Numbers -/

@[simp] theorem exact_gasMinMoles : (gasMinMoles : ℚ) = 1 / 10000 := by
  norm_num [gasMinMoles]

@[simp] theorem exact_molarAccuracy : (molarAccuracy : ℚ) = 1 / 10000 := by
  norm_num [molarAccuracy]

@[simp] theorem exact_minimumHeatCapacity : (minimumHeatCapacity : ℚ) = 3 / 10000 := by
  norm_num [minimumHeatCapacity]

@[simp] theorem exact_tcmb : (tcmb : ℚ) = 27 / 10 := by
  norm_num [tcmb]

theorem quantize_nonneg {amount : ℚ} (h : 0 ≤ amount) : 0 ≤ quantize amount :=
  Dogmos.quantize_nonneg h

theorem quantize_zero : quantize (0 : ℚ) = 0 := by
  norm_num [quantize, round_eq, Exact.roundHalfAway]

theorem collected_eq (amount : ℚ) :
    collected amount = if 1 / 10000 < amount then amount else 0 := by
  simp [collected]

/-! ## What is stored of an amount -/

/-- What is stored of an amount: all of it, or nothing of a trace that is collected. -/
def Collects (amount stored : ℚ) : Prop := stored = amount ∨ (stored = 0 ∧ amount ≤ 1 / 10000)

section Collects

variable {amount stored kept : ℚ}

theorem Collects.refl (amount : ℚ) : Collects amount amount := .inl rfl

theorem collects_collected (amount : ℚ) : Collects amount (collected amount) := by
  rw [collected_eq]
  split
  · exact .inl rfl
  · next h => exact .inr ⟨rfl, not_lt.1 h⟩

theorem Collects.trans (h : Collects amount stored) (h' : Collects stored kept) :
    Collects amount kept := by
  rcases h with rfl | ⟨rfl, hsmall⟩
  · exact h'
  · rcases h' with rfl | ⟨rfl, -⟩
    · exact .inr ⟨rfl, hsmall⟩
    · exact .inr ⟨rfl, hsmall⟩

theorem Collects.nonneg (h : Collects amount stored) (hamount : 0 ≤ amount) : 0 ≤ stored := by
  rcases h with rfl | ⟨rfl, -⟩
  · exact hamount
  · exact le_refl 0

theorem Collects.le (h : Collects amount stored) (hamount : 0 ≤ amount) : stored ≤ amount := by
  rcases h with rfl | ⟨rfl, -⟩
  · exact le_refl _
  · exact hamount

theorem collected_nonneg (amount : ℚ) : 0 ≤ collected amount := by
  rw [collected_eq]
  split <;> linarith

end Collects

/-! ## Truncation -/

theorem retainedLen_concat (moles : List ℚ) (amount : ℚ) :
    retainedLen (moles ++ [amount]) =
      if gasMinMoles < amount then moles.length + 1 else retainedLen moles := by
  simp [retainedLen, List.zipIdx_append, List.foldl_append]

/-- Nothing behind the retained length is kept. -/
theorem collected_of_retainedLen_le (moles : List ℚ) {i : Nat} {amount : ℚ}
    (hi : retainedLen moles ≤ i) (hamount : moles[i]? = some amount) : collected amount = 0 := by
  induction moles using List.reverseRecOn with
  | nil => cases hamount
  | append_singleton moles last ih =>
    rw [retainedLen_concat] at hi
    rw [List.getElem?_append] at hamount
    split at hi
    · -- the last amount is kept, so `i` is past the end
      rw [if_neg (by omega), List.getElem?_eq_none (by simp; omega)] at hamount
      cases hamount
    · next hlast =>
      split at hamount
      · exact ih hi hamount
      · next hend =>
        obtain ⟨-, rfl⟩ : i - moles.length = 0 ∧ last = amount := by
          rcases hrest : i - moles.length with _ | rest
          · rw [hrest] at hamount
            exact ⟨rfl, Option.some.inj hamount⟩
          · rw [hrest] at hamount
            cases hamount
        rw [collected, if_neg hlast, exact_zero]

namespace Mixture

variable {m : Mixture ℚ} {idx i : Nat} {amount : ℚ}

theorem getMoles_eq (m : Mixture ℚ) (i : Nat) : m.getMoles i = m.moles[i]?.getD 0 := by
  rw [getMoles, exact_zero]

theorem getMoles_of_le (h : m.moles.length ≤ i) : m.getMoles i = 0 := by
  rw [getMoles_eq, List.getElem?_eq_none h]
  rfl

@[simp] theorem getMoles_invalidated (m : Mixture ℚ) (i : Nat) :
    m.invalidated.getMoles i = m.getMoles i := rfl

@[simp] theorem getMoles_measured (m : Mixture ℚ) (table : GasTable ℚ) (i : Nat) :
    (m.measured table).getMoles i = m.getMoles i := rfl

@[simp] theorem getMoles_setTemperature (m : Mixture ℚ) (temperature : ℚ) (i : Nat) :
    (m.setTemperature temperature).getMoles i = m.getMoles i := by
  unfold setTemperature
  split <;> rfl

/-- The amounts of a mixture with another vector. -/
theorem getMoles_withMoles (m : Mixture ℚ) (moles : List ℚ) (i : Nat) :
    getMoles { m with moles := moles } i = moles[i]?.getD 0 := getMoles_eq ..

theorem getMoles_garbageCollect (m : Mixture ℚ) (i : Nat) :
    m.garbageCollect.getMoles i = collected (m.getMoles i) := by
  rw [garbageCollect, getMoles_withMoles, getMoles_eq, List.getElem?_take, List.getElem?_map]
  rcases hi : m.moles[i]? with _ | amount
  · have hnone : collected (0 : ℚ) = 0 := by norm_num [collected_eq]
    simp [hnone]
  · split
    · rfl
    · next hbehind =>
      exact (collected_of_retainedLen_le m.moles (Nat.le_of_not_lt hbehind) hi).symm

/-! ## All amounts multiplied -/

theorem getMoles_maybeExpand (m : Mixture ℚ) (size i : Nat) :
    (m.maybeExpand size).getMoles i = m.getMoles i := by
  rw [maybeExpand, getMoles_withMoles, getMoles_eq, List.getElem?_append]
  split
  · rfl
  · next hlength =>
    rw [List.getElem?_eq_none (Nat.le_of_not_lt hlength), List.getElem?_replicate]
    split <;> simp

theorem getMoles_set (m : Mixture ℚ) (size idx i : Nat) (amount : ℚ) (hsize : idx < size) :
    getMoles { m.maybeExpand size with moles := (m.maybeExpand size).moles.set idx amount } i =
      if i = idx then amount else m.getMoles i := by
  rw [getMoles_withMoles, List.getElem?_set]
  by_cases hi : idx = i
  · have hlength : idx < (m.maybeExpand size).moles.length := by
      simp [maybeExpand]
      omega
    rw [if_pos hi, if_pos hlength, if_pos hi.symm]
    rfl
  · rw [if_neg hi, if_neg (Ne.symm hi), ← getMoles_eq, getMoles_maybeExpand]

theorem immutable_putMoles (m : Mixture ℚ) (idx : Nat) (amount : ℚ) :
    (m.putMoles idx amount).immutable = m.immutable := by
  unfold putMoles
  split_ifs <;> rfl

/-- Putting what is collected of an amount stores that, and may collect the other amounts. -/
theorem collects_putMoles (hmutable : m.immutable = false) (idx i : Nat) (amount : ℚ) :
    Collects (if i = idx then amount else m.getMoles i)
      ((m.putMoles idx (collected amount)).getMoles i) := by
  unfold putMoles
  rw [hmutable, if_neg Bool.false_ne_true]
  by_cases hnothing : m.moles.length ≤ idx ∧ (collected amount == 0.0) = true
  · -- the gas is past the end and its amount is a trace
    rw [if_pos hnothing]
    split
    · next hi =>
      have hzero : collected amount = 0 := by simpa using hnothing.2
      rw [hi, getMoles_of_le hnothing.1, ← hzero]
      exact collects_collected amount
    · exact .refl _
  · rw [if_neg hnothing]
    dsimp only
    have hstored : Collects (if i = idx then amount else m.getMoles i)
        (if i = idx then collected amount else m.getMoles i) := by
      split
      · exact collects_collected amount
      · exact .refl _
    by_cases hzero : (collected amount == 0.0) = true
    · rw [if_pos hzero, getMoles_garbageCollect, getMoles_invalidated,
        getMoles_set _ _ _ _ _ (Nat.lt_succ_self _)]
      exact hstored.trans (collects_collected _)
    · rw [if_neg hzero, getMoles_invalidated, getMoles_set _ _ _ _ _ (Nat.lt_succ_self _)]
      exact hstored

/-! ## One delta added -/

variable {table : GasTable ℚ} {delta : ℚ}

theorem validateMoleAmount_eq {amount : ℚ} (h : 0 ≤ amount) :
    validateMoleAmount amount = .ok (collected amount) := by
  rw [validateMoleAmount, if_neg (by simp; linarith), collected_eq, exact_gasMinMoles, exact_zero]
  by_cases hamount : amount ≤ 1 / 10000
  · rw [if_pos hamount, if_neg (not_lt.2 hamount)]
    rfl
  · rw [if_neg hamount, if_pos (not_le.1 hamount)]
    rfl

theorem run_setMoles (m : Mixture ℚ) (hidx : idx < table.length) (hamount : 0 ≤ amount) :
    run (setMoles table idx amount) m = (.ok (), m.putMoles idx (collected amount)) := by
  unfold setMoles
  rw [run_bind, run_check, validateMoleAmount_eq hamount]
  dsimp only
  rw [if_neg (Nat.not_le.2 hidx)]
  rfl

/-- A delta is added to the amount, or refused because the sum is past the largest number. -/
theorem run_adjustMoles (hmutable : m.immutable = false) (hidx : idx < table.length)
    (hdelta : delta ≠ 0) (hsum : 0 ≤ m.getMoles idx + delta) :
    run (adjustMoles (D := ℚ) table idx delta) m =
      if Exact.largest < m.getMoles idx + delta then (.error (.moleOverflow idx), m)
      else (.ok (), m.putMoles idx (collected (m.getMoles idx + delta))) := by
  have hpasses : (m.immutable || delta == 0.0 || !FloatFormat.isNormal delta) = false := by
    simp [hmutable, hdelta, FloatFormat.isNormal]
  have hadjusted : (fmax (widen (m.getMoles idx) + widen delta) 0.0 : ℚ) =
      m.getMoles idx + delta := by
    rw [exact_zero]
    exact max_eq_left hsum
  unfold adjustMoles
  rw [run_bind, run_check]
  simp only [validateMoleDelta, Exact.isFinite_eq, Bool.not_true, Bool.false_eq_true, if_false]
  dsimp only [pure, Except.pure]
  rw [if_neg (Nat.not_le.2 hidx), run_bind, run_get]
  dsimp only
  rw [hpasses, if_neg Bool.false_ne_true, hadjusted]
  by_cases hlarge : Exact.largest < m.getMoles idx + delta
  · rw [if_pos hlarge]
    exact congrArg (fun computation => run computation m) (if_pos hlarge)
  · rw [if_neg hlarge, ← run_setMoles m hidx hsum]
    exact congrArg (fun computation => run computation m) (if_neg hlarge)

theorem run_adjustMoles_zero (m : Mixture ℚ) (hidx : idx < table.length) :
    run (adjustMoles (D := ℚ) table idx 0) m = (.ok (), m) := by
  unfold adjustMoles
  rw [run_bind, run_check]
  simp only [validateMoleDelta, Exact.isFinite_eq, Bool.not_true, Bool.false_eq_true, if_false]
  dsimp only [pure, Except.pure]
  rw [if_neg (Nat.not_le.2 hidx), run_bind, run_get]
  dsimp only
  rw [if_pos (by simp)]
  rfl

/-- No amount is negative. -/
def Nonneg (m : Mixture ℚ) : Prop := ∀ i, 0 ≤ m.getMoles i

/-- What adding a delta does: the sum is stored, or the mixture stays as it is. -/
theorem adjustMoles_cases (hmutable : m.immutable = false) (hidx : idx < table.length)
    (hdelta : 0 ≤ delta) (hheld : m.Nonneg) :
    (∃ m', run (adjustMoles (D := ℚ) table idx delta) m = (.ok (), m') ∧ m'.immutable = false ∧
        ∀ i, Collects (m.getMoles i + if i = idx then delta else 0) (m'.getMoles i)) ∨
      0 < delta ∧ ∃ error, run (adjustMoles (D := ℚ) table idx delta) m = (.error error, m) := by
  rcases hdelta.eq_or_lt with rfl | hpos
  · refine .inl ⟨m, run_adjustMoles_zero m hidx, hmutable, fun i => ?_⟩
    rw [ite_self, add_zero]
    exact .refl _
  rw [run_adjustMoles hmutable hidx hpos.ne' (add_nonneg (hheld idx) hdelta)]
  split
  · exact .inr ⟨hpos, _, rfl⟩
  · refine .inl ⟨_, rfl, (immutable_putMoles ..).trans hmutable, fun i => ?_⟩
    have hstored := collects_putMoles hmutable idx i (m.getMoles idx + delta)
    split at hstored
    · next hi => rwa [if_pos hi, hi] at *
    · next hi => rwa [if_neg hi, add_zero]

end Mixture

end Legacy

end Dogmos
