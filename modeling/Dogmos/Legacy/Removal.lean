import Dogmos.Legacy.Amounts
import Mathlib.Algebra.Order.BigOperators.Group.List

/-!
# Removal between legacy mixtures

Removing a ratio overwrites the destination with rounded amounts, and transferring listed gases
adds unrounded ones to it.  Neither looks at what the source still holds, so matter is kept only
where nothing is rounded past the amount itself and no gas is listed too often.

* `Kept` — what should become of one gas: nothing is negative or created, and what is missing was
  collected as a trace.
* `removal_kept_iff` — the exact condition, for each way of removing.
-/

namespace Dogmos

namespace Legacy

open Exec Mixture

/-! ## What becomes of one gas -/

/-- What an amount becomes that receives portions one after the other, where each amount stored on
the way may be collected. -/
inductive Received : ℚ → List ℚ → ℚ → Prop
  | settle {held held' : ℚ} (h : Collects held held') : Received held [] held'
  | add {held stored portion held' : ℚ} {portions : List ℚ} (h : Collects held stored)
      (hrest : Received (stored + portion) portions held') :
      Received held (portion :: portions) held'

/-- One gas before and after a removal: at most `count` portions left the source for a destination
that received them on top of `start`, and the amounts after it are what is stored of the rest. -/
structure Kept (count : Nat) (source into start source' into' : ℚ) : Prop where
  source_nonneg : 0 ≤ source'
  into_nonneg : 0 ≤ into'
  bounded : source' + into' ≤ source + into
  moved : ∃ left portions, 0 ≤ left ∧ (∀ portion ∈ portions, 0 ≤ portion) ∧
    portions.length ≤ count ∧ left + portions.sum = source ∧ Collects left source' ∧
    Received start portions into'

section Received

variable {held stored held' : ℚ} {portions : List ℚ}

theorem Received.of_collects (h : Collects held stored)
    (hreceived : Received stored portions held') : Received held portions held' := by
  cases hreceived with
  | settle hsettle => exact .settle (h.trans hsettle)
  | add hstored hrest => exact .add (h.trans hstored) hrest

theorem Received.bounds (h : Received held portions held') (hheld : 0 ≤ held)
    (hportions : ∀ portion ∈ portions, 0 ≤ portion) : 0 ≤ held' ∧ held' ≤ held + portions.sum := by
  induction h with
  | settle hsettle => exact ⟨hsettle.nonneg hheld, by simpa using hsettle.le hheld⟩
  | add hstored _ ih =>
    rw [List.forall_mem_cons] at hportions
    have hnonneg := hstored.nonneg hheld
    have hle := hstored.le hheld
    obtain ⟨hlow, hhigh⟩ := ih (by linarith [hportions.1]) hportions.2
    refine ⟨hlow, ?_⟩
    rw [List.sum_cons]
    linarith

theorem Kept.of_moved {count : Nat} {source into start source' into' left : ℚ}
    (portions : List ℚ) (hstart : 0 ≤ start) (hinto : start ≤ into) (hleft : 0 ≤ left)
    (hportions : ∀ portion ∈ portions, 0 ≤ portion) (hcount : portions.length ≤ count)
    (hsum : left + portions.sum = source) (hcollects : Collects left source')
    (hreceived : Received start portions into') : Kept count source into start source' into' := by
  obtain ⟨hlow, hhigh⟩ := hreceived.bounds hstart hportions
  have hle := hcollects.le hleft
  exact {
    source_nonneg := hcollects.nonneg hleft
    into_nonneg := hlow
    bounded := by linarith
    moved := ⟨left, portions, hleft, hportions, hcount, hsum, hcollects, hreceived⟩ }

end Received

namespace Mixture

variable {source into : Mixture ℚ} {table : GasTable ℚ}

/-! ## A ratio removed -/

/-- Matter is kept by a removal into a mixture that is overwritten, or nothing is done at all. -/
def RemovalKept (source into : Mixture ℚ) (after : Mixture ℚ × Mixture ℚ) : Prop :=
  after = (source, into) ∨
    ∀ i, Kept 1 (source.getMoles i) (into.getMoles i) 0 (after.1.getMoles i) (after.2.getMoles i)

/-- No amount that is more than a trace is rounded past what the source holds. -/
def RoundsWithin (source : Mixture ℚ) (ratio : ℚ) : Prop :=
  ∀ i, quantize (source.getMoles i * min ratio 1) ≤ max (source.getMoles i) (1 / 10000)

theorem removeRatioInto_of_nonpos {ratio : ℚ} (h : ratio ≤ 0) :
    source.removeRatioInto ratio into = (source, into) := by
  unfold removeRatioInto
  rw [if_pos (by simpa using h)]

/-- What a removal places of one gas in the destination, whether the source loses it or not. -/
theorem getMoles_removed (source : Mixture ℚ) (hinto : into.immutable = false) {ratio : ℚ}
    (hratio : 0 < ratio) (i : Nat) : (source.removeRatioInto ratio into).2.getMoles i =
      collected (quantize (source.getMoles i * min ratio 1)) := by
  have hpositive : (!FloatFormat.isFinite ratio || decide (ratio ≤ 0.0)) = false := by
    simpa using hratio
  have hmin : (fmin ratio 1.0 : ℚ) = min ratio 1 := by simp
  have hplaced : (source.removeRatioInto ratio into).2 =
      { into.copyFromMutable source with
        moles := (into.copyFromMutable source).moles.map fun amount =>
          quantize (amount * fmin ratio 1.0) }.invalidated.garbageCollect := by
    unfold removeRatioInto
    rw [hpositive]
    dsimp only
    rw [hinto]
    simp only [Bool.false_eq_true, if_false]
    split <;> rfl
  rw [hplaced, copyFromMutable, hinto]
  simp only [Bool.false_eq_true, if_false]
  rw [getMoles_garbageCollect, getMoles_invalidated, hmin]
  congr 1
  simp only [getMoles_eq, List.getElem?_map]
  rcases source.moles[i]? with _ | amount
  · simp [quantize_zero]
  · rfl

theorem removeRatioInto_of_immutable (hsource : source.immutable = true) (ratio : ℚ) :
    (source.removeRatioInto ratio into).1 = source := by
  unfold removeRatioInto
  split
  · rfl
  · dsimp only
    split
    · rfl
    · rfl

/-- What a removal leaves of one gas, and what it places in the destination. -/
theorem getMoles_removeRatioInto (hsource : source.immutable = false)
    (hinto : into.immutable = false) {ratio : ℚ} (hratio : 0 < ratio) (i : Nat) :
    (source.removeRatioInto ratio into).1.getMoles i =
        collected (source.getMoles i - quantize (source.getMoles i * min ratio 1)) ∧
      (source.removeRatioInto ratio into).2.getMoles i =
        collected (quantize (source.getMoles i * min ratio 1)) := by
  refine ⟨?_, getMoles_removed source hinto hratio i⟩
  have hpositive : (!FloatFormat.isFinite ratio || decide (ratio ≤ 0.0)) = false := by
    simpa using hratio
  unfold removeRatioInto
  rw [hpositive]
  dsimp only
  rw [hinto, hsource]
  dsimp only [copyFromMutable]
  rw [hinto]
  have hmin : (fmin ratio 1.0 : ℚ) = min ratio 1 := by simp
  simp only [Bool.false_eq_true, if_false]
  rw [getMoles_garbageCollect, getMoles_invalidated, hmin]
  congr 1
  simp only [getMoles_eq, List.getElem?_zipWith, List.getElem?_map]
  rcases source.moles[i]? with _ | amount
  · simp [quantize_zero]
  · rfl

/-- Matter is kept exactly if nothing is removed or nothing is rounded past what is held. -/
theorem removalKept_iff (hsource : source.immutable = false) (hinto : into.immutable = false)
    (hheld : source.Nonneg) (hheld' : into.Nonneg) (ratio : ℚ) :
    RemovalKept source into (source.removeRatioInto ratio into) ↔
      ratio ≤ 0 ∨ source.RoundsWithin ratio := by
  rcases le_or_gt ratio 0 with hratio | hratio
  · exact iff_of_true (.inl (removeRatioInto_of_nonpos hratio)) (.inl hratio)
  rw [or_iff_right (not_le.2 hratio)]
  have hamounts := fun i => getMoles_removeRatioInto hsource hinto hratio i
  have hportion : ∀ i, 0 ≤ quantize (source.getMoles i * min ratio 1) := fun i =>
    quantize_nonneg (mul_nonneg (hheld i) (le_min hratio.le zero_le_one))
  constructor
  · intro hkept i
    by_contra hpast
    rw [not_le, max_lt_iff] at hpast
    -- the destination holds the whole portion, and nothing is left in the source
    have hplaced : (source.removeRatioInto ratio into).2.getMoles i =
        quantize (source.getMoles i * min ratio 1) := by
      rw [(hamounts i).2, collected_eq, if_pos hpast.2]
    have hleft : (source.removeRatioInto ratio into).1.getMoles i = 0 := by
      rw [(hamounts i).1, collected_eq, if_neg (by linarith [hpast.1])]
    rcases hkept with hsame | hkept
    · rw [hsame] at hleft
      rw [hleft, zero_mul, quantize_zero] at hpast
      exact lt_irrefl _ hpast.1
    · obtain ⟨left, portions, hleft, hportions, -, hsum, -, hreceived⟩ := (hkept i).moved
      have hbound := (hreceived.bounds le_rfl hportions).2
      rw [hplaced] at hbound
      linarith [hpast.1]
  · intro hwithin
    refine .inr fun i => ?_
    rw [(hamounts i).1, (hamounts i).2]
    rcases le_or_gt (quantize (source.getMoles i * min ratio 1)) (source.getMoles i) with
      hle | hpast
    · refine Kept.of_moved [quantize (source.getMoles i * min ratio 1)] le_rfl (hheld' i)
        (sub_nonneg.2 hle) ?_ le_rfl ?_
        (collects_collected _) (.add (.refl 0) (.settle ?_))
      · simpa using hportion i
      · simp
      · rw [zero_add]
        exact collects_collected _
    · -- what is rounded past the amount is a trace, and so is the amount
      have htrace : quantize (source.getMoles i * min ratio 1) ≤ 1 / 10000 :=
        (le_max_iff.1 (hwithin i)).resolve_left (not_le.2 hpast)
      refine Kept.of_moved [] le_rfl (hheld' i) (hheld i) (by simp) (Nat.zero_le _) (by simp) ?_
        (.settle ?_)
      · rw [collected_eq, if_neg (by linarith)]
        exact .inr ⟨rfl, by linarith⟩
      · rw [collected_eq, if_neg (not_lt.2 htrace)]
        exact .refl 0

/-! ## Listed gases transferred -/

/-- The portions of one gas in a list of transfers. -/
def portionsOf (transfers : List (Nat × ℚ)) (i : Nat) : List ℚ :=
  transfers.filterMap fun transfer => if transfer.1 = i then some transfer.2 else none

theorem portionsOf_cons (transfer : Nat × ℚ) (rest : List (Nat × ℚ)) (i : Nat) :
    portionsOf (transfer :: rest) i =
      if transfer.1 = i then transfer.2 :: portionsOf rest i else portionsOf rest i := by
  rw [portionsOf, List.filterMap_cons]
  by_cases hi : transfer.1 = i
  · rw [if_pos hi, if_pos hi]
    rfl
  · rw [if_neg hi, if_neg hi]
    rfl

/-- A mixture takes the portions one after the other, and none of them is refused. -/
def Accepts (table : GasTable ℚ) (into : Mixture ℚ) (transfers : List (Nat × ℚ)) : Prop :=
  (run (transfers.forM fun transfer => adjustMoles (D := ℚ) table transfer.1 transfer.2) into).1 =
    .ok ()

/-- A mixture without a portion of one gas. -/
def withdrawn (source : Mixture ℚ) (idx : Nat) (delta : ℚ) : Mixture ℚ :=
  { source with moles := source.moles.modify idx (· - delta) }

theorem getMoles_withdrawn {idx : Nat} (hidx : idx < source.moles.length) (delta : ℚ) (i : Nat) :
    (source.withdrawn idx delta).getMoles i = source.getMoles i - if i = idx then delta else 0 := by
  simp only [withdrawn, getMoles_eq, List.getElem?_modify]
  by_cases hi : i = idx
  · rw [hi, List.getElem?_eq_getElem hidx]
    simp
  · simp [hi, Ne.symm hi]

theorem run_moveGas (source into : Mixture ℚ) (idx : Nat) (delta : ℚ) :
    run (moveGas (D := ℚ) table (idx, delta)) (source, into) =
      ((run (adjustMoles (D := ℚ) table idx delta) into).1,
        (source.withdrawn idx delta, (run (adjustMoles (D := ℚ) table idx delta) into).2)) := by
  unfold moveGas
  dsimp only
  rw [run_bind, run_modify]
  dsimp only
  rw [run_embed]
  dsimp only
  rcases run (adjustMoles (D := ℚ) table idx delta) into with ⟨error | value, after⟩
  · rfl
  · rfl

/-- What the loop over the transfers leaves: all portions moved, or a source without a portion that
the destination refused. -/
def Settled (table : GasTable ℚ) (source into : Mixture ℚ) (transfers : List (Nat × ℚ)) :
    Except MixtureValueError Unit × Mixture ℚ × Mixture ℚ → Prop
  | (.ok _, source', into') => Accepts table into transfers ∧ ∀ i,
      source'.getMoles i = source.getMoles i - (portionsOf transfers i).sum ∧
      Received (into.getMoles i) (portionsOf transfers i) (into'.getMoles i)
  | (.error _, source', _) =>
      ¬Accepts table into transfers ∧ ∃ i, source'.getMoles i < source.getMoles i

theorem settled_moveGas {transfers : List (Nat × ℚ)} (hmutable : into.immutable = false)
    (hheld : into.Nonneg) (hvalid : ∀ transfer ∈ transfers,
      transfer.1 < source.moles.length ∧ transfer.1 < table.length ∧ 0 ≤ transfer.2) :
    Settled table source into transfers
      (run (transfers.forM (moveGas (D := ℚ) table)) (source, into)) := by
  induction transfers generalizing source into with
  | nil =>
    refine ⟨rfl, fun i => ⟨?_, .settle (.refl _)⟩⟩
    simp [portionsOf]
  | cons transfer rest ih =>
    obtain ⟨idx, delta⟩ := transfer
    rw [List.forall_mem_cons] at hvalid
    obtain ⟨⟨hsource, htable, hdelta⟩, hrest⟩ := hvalid
    have hwithdrawn := fun i => getMoles_withdrawn hsource delta i
    rw [run_forM_cons, run_bind, run_moveGas]
    rcases adjustMoles_cases hmutable htable hdelta hheld with
      ⟨stored, hstored, hmutable', hcollects⟩ | ⟨hpos, error, hrefused⟩
    · have haccepts : Accepts table into ((idx, delta) :: rest) ↔ Accepts table stored rest := by
        unfold Accepts
        rw [run_forM_cons, run_bind, hstored]
      rw [hstored]
      dsimp only
      have hheld' : stored.Nonneg := fun i => (hcollects i).nonneg (by
        have hi := hheld i
        split <;> linarith)
      have hlength : (source.withdrawn idx delta).moles.length = source.moles.length := by
        simp [withdrawn]
      have hvalid' : ∀ transfer ∈ rest, transfer.1 < (source.withdrawn idx delta).moles.length ∧
          transfer.1 < table.length ∧ 0 ≤ transfer.2 := by
        rw [hlength]
        exact hrest
      have hafter := ih hmutable' hheld' hvalid'
      generalize run (rest.forM (moveGas (D := ℚ) table)) (source.withdrawn idx delta, stored) =
        outcome at hafter ⊢
      rcases outcome with ⟨failure | value, source', into'⟩
      · refine ⟨haccepts.not.2 hafter.1, hafter.2.imp fun i hi => lt_of_lt_of_le hi ?_⟩
        rw [hwithdrawn]
        split <;> linarith
      · refine ⟨haccepts.2 hafter.1, fun i => ?_⟩
        obtain ⟨hleft, hreceived⟩ := hafter.2 i
        have hi := hcollects i
        rw [hwithdrawn] at hleft
        rw [portionsOf_cons]
        dsimp only
        by_cases hsame : i = idx
        · rw [if_pos hsame] at hleft hi
          rw [if_pos hsame.symm]
          refine ⟨?_, .add (.refl _) (.of_collects hi hreceived)⟩
          rw [List.sum_cons, hleft]
          ring
        · rw [if_neg hsame] at hleft hi
          rw [sub_zero] at hleft
          rw [add_zero] at hi
          rw [if_neg (Ne.symm hsame)]
          exact ⟨hleft, .of_collects hi hreceived⟩
    · rw [hrefused]
      refine ⟨fun haccepts => ?_, idx, ?_⟩
      · unfold Accepts at haccepts
        rw [run_forM_cons, run_bind, hrefused] at haccepts
        cases haccepts
      rw [hwithdrawn, if_pos rfl]
      linarith

theorem transfers_cons (source : Mixture ℚ) (table : GasTable ℚ) (ratio : ℚ) (gas : Nat)
    (gases : List Nat) : source.transfers table ratio (gas :: gases) =
      if gas < source.moles.length ∧ gas < table.length then
        (gas, source.getMoles gas * ratio) :: source.transfers table ratio gases
      else source.transfers table ratio gases := by
  have hheats : table.specificHeats.length = table.length := by simp [GasTable.specificHeats]
  rw [transfers, List.filterMap_cons]
  by_cases hvalid : gas < source.moles.length ∧ gas < table.length
  · rw [if_pos hvalid, getMoles_eq, List.getElem?_eq_getElem hvalid.1,
      List.getElem?_eq_getElem (hheats.symm ▸ hvalid.2)]
    rfl
  · rw [if_neg hvalid]
    rcases not_and_or.1 hvalid with hpast | hpast
    · rw [List.getElem?_eq_none (Nat.le_of_not_lt hpast)]
      rfl
    · rw [List.getElem?_eq_none (l := table.specificHeats) (by omega)]
      rcases source.moles[gas]? <;> rfl

/-- The portions of a gas that is listed are as many as it is listed times. -/
theorem portionsOf_transfers (source : Mixture ℚ) (table : GasTable ℚ) (ratio : ℚ)
    (gases : List Nat) (i : Nat) :
    portionsOf (source.transfers table ratio gases) i =
      if i < source.moles.length ∧ i < table.length then
        List.replicate (gases.count i) (source.getMoles i * ratio)
      else [] := by
  induction gases with
  | nil => simp [transfers, portionsOf]
  | cons gas gases ih =>
    rw [transfers_cons, List.count_cons]
    by_cases hgas : gas = i
    · rw [hgas]
      split
      · rw [portionsOf_cons, if_pos rfl, ih, if_pos ‹_›]
        simp [List.replicate_succ]
      · rw [ih, if_neg ‹_›]
    · have hcount : (if (gas == i) = true then 1 else 0) = 0 := by simp [hgas]
      rw [hcount, Nat.add_zero, ← ih]
      split
      · rw [portionsOf_cons, if_neg hgas]
      · rfl

theorem valid_of_mem_transfers {ratio : ℚ} (hheld : source.Nonneg) (hratio : 0 ≤ ratio)
    {gases : List Nat} {transfer : Nat × ℚ}
    (h : transfer ∈ source.transfers table ratio gases) :
    transfer.1 < source.moles.length ∧ transfer.1 < table.length ∧ 0 ≤ transfer.2 := by
  induction gases with
  | nil => cases h
  | cons gas gases ih =>
    rw [transfers_cons] at h
    split at h
    · next hvalid =>
      rcases List.mem_cons.1 h with rfl | hrest
      · exact ⟨hvalid.1, hvalid.2, mul_nonneg (hheld gas) hratio⟩
      · exact ih hrest
    · exact ih h

/-- Matter is kept by a transfer of listed gases, and a refused one changes no amount. -/
def TransferKept (source into : Mixture ℚ) (gases : List Nat) :
    Except MixtureValueError Unit × Mixture ℚ × Mixture ℚ → Prop
  | (.ok _, source', into') => ∀ i, Kept (gases.count i) (source.getMoles i) (into.getMoles i)
      (into.getMoles i) (source'.getMoles i) (into'.getMoles i)
  | (.error _, source', into') => ∀ i,
      source'.getMoles i = source.getMoles i ∧ into'.getMoles i = into.getMoles i

/-- A transfer is refused before anything is moved, or the portions fit the destination together
and no gas is listed so often that its portions are more than the source holds. -/
def TransferFits (table : GasTable ℚ) (source into : Mixture ℚ) (ratio : ℚ) (gases : List Nat) :
    Prop :=
  into.firstOverflow (source.transfers table ratio gases) ≠ none ∨
    Accepts table (into.measured table) (source.transfers table ratio gases) ∧
      ∀ i < table.length, gases.count i * ratio ≤ 1 ∨ source.getMoles i = 0

/-- The destination of a transfer with its temperature set from its energy. -/
def reheated (into : Mixture ℚ) (table : GasTable ℚ) (energy : ℚ) : Mixture ℚ :=
  if minimumHeatCapacity < into.invalidated.heatCapacity table then
    (into.invalidated.measured table).setTemperature
      (energy / into.invalidated.heatCapacity table)
  else into.invalidated.measured table

theorem getMoles_reheated (into : Mixture ℚ) (table : GasTable ℚ) (energy : ℚ) (i : Nat) :
    (into.reheated table energy).getMoles i = into.getMoles i := by
  unfold reheated
  split <;> simp

theorem run_transferGasesTo (table : GasTable ℚ) (hsource : source.immutable = false)
    (hinto : into.immutable = false) (ratio : ℚ) (gases : List Nat) : ∃ energy,
    run (transferGasesTo (D := ℚ) table ratio gases) (source, into) =
      match into.firstOverflow (source.transfers table (max 0 (min ratio 1)) gases) with
      | some idx => (.error (.moleOverflow idx), (source, into.measured table))
      | none =>
        match run ((source.transfers table (max 0 (min ratio 1)) gases).forM
            (moveGas (D := ℚ) table)) (source, into.measured table) with
        | (.ok _, source', into') => (.ok (), (source'.invalidated, into'.reheated table energy))
        | (.error error, pair) => (.error error, pair) := by
  refine ⟨into.thermalEnergy table + source.heatTransfer table (max 0 (min ratio 1)) gases, ?_⟩
  unfold transferGasesTo
  rw [run_bind, run_get]
  dsimp only
  rw [hsource, hinto]
  simp only [Bool.or_false, Bool.false_eq_true, if_false, Exact.isFinite_eq, Bool.not_true,
    clamp_eq]
  rw [run_bind, run_modify]
  dsimp only
  rcases into.firstOverflow (source.transfers table (max 0 (min ratio 1)) gases) with _ | idx
  · dsimp only
    rw [run_bind]
    rcases run ((source.transfers table (max 0 (min ratio 1)) gases).forM
      (moveGas (D := ℚ) table)) (source, into.measured table) with ⟨error | value, pair⟩
    · rfl
    · rfl
  · rfl

/-- Matter is kept exactly if the listed portions fit. -/
theorem transferKept_iff (hsource : source.immutable = false) (hinto : into.immutable = false)
    (hheld : source.Nonneg) (hheld' : into.Nonneg) (ratio : ℚ) (gases : List Nat) :
    TransferKept source into gases
        (run (transferGasesTo (D := ℚ) table ratio gases) (source, into)) ↔
      TransferFits table source into (max 0 (min ratio 1)) gases := by
  have hratio : 0 ≤ max 0 (min ratio 1) := le_max_left ..
  obtain ⟨energy, hrun⟩ := run_transferGasesTo table hsource hinto ratio gases
  rw [hrun]
  unfold TransferFits
  generalize max 0 (min ratio 1) = ratio at hratio ⊢
  rcases hoverflow : into.firstOverflow (source.transfers table ratio gases) with _ | idx
  · dsimp only
    rw [or_iff_right (not_not.2 rfl)]
    have hsettled : Settled table source (into.measured table)
        (source.transfers table ratio gases) (run ((source.transfers table ratio gases).forM
          (moveGas (D := ℚ) table)) (source, into.measured table)) :=
      settled_moveGas hinto hheld' fun transfer => valid_of_mem_transfers hheld hratio
    generalize run ((source.transfers table ratio gases).forM (moveGas (D := ℚ) table))
      (source, into.measured table) = outcome at hsettled ⊢
    rcases outcome with ⟨error | value, source', into'⟩
    · -- the destination refused a portion that had left the source
      obtain ⟨hrefuses, i, hi⟩ := hsettled
      refine iff_of_false (fun hkept => ?_) fun hfits => hrefuses hfits.1
      exact hi.ne (hkept i).1
    · obtain ⟨haccepts, hamounts⟩ := hsettled
      rw [and_iff_right haccepts]
      have hportions : ∀ i, ∀ portion ∈ portionsOf (source.transfers table ratio gases) i,
          0 ≤ portion := by
        intro i portion hportion
        rw [portionsOf_transfers] at hportion
        split at hportion
        · rw [List.eq_of_mem_replicate hportion]
          exact mul_nonneg (hheld i) hratio
        · cases hportion
      constructor
      · intro hkept i htable
        by_contra hmany
        rw [not_or, not_le] at hmany
        have hlength : i < source.moles.length := by
          by_contra hpast
          exact hmany.2 (getMoles_of_le (Nat.le_of_not_lt hpast))
        have hpos := lt_of_le_of_ne (hheld i) (Ne.symm hmany.2)
        have hleft := (hamounts i).1
        rw [portionsOf_transfers, if_pos ⟨hlength, htable⟩, List.sum_replicate, nsmul_eq_mul]
          at hleft
        have hnonneg : 0 ≤ source'.getMoles i := (hkept i).source_nonneg
        nlinarith [mul_lt_mul_of_pos_left hmany.1 hpos]
      · intro hfits i
        obtain ⟨hleft, hreceived⟩ := hamounts i
        rw [getMoles_measured] at hreceived
        rw [getMoles_reheated, getMoles_invalidated]
        have hsum : 0 ≤ source'.getMoles i ∧
            (portionsOf (source.transfers table ratio gases) i).length ≤ gases.count i := by
          rw [hleft, portionsOf_transfers]
          split
          · next hvalid =>
            rw [List.sum_replicate, nsmul_eq_mul, List.length_replicate]
            refine ⟨?_, Nat.le_refl _⟩
            rcases hfits i hvalid.2 with hfew | hzero
            · nlinarith [mul_le_mul_of_nonneg_left hfew (hheld i)]
            · rw [hzero]
              simp
          · exact ⟨by simpa using hheld i, Nat.zero_le _⟩
        refine Kept.of_moved _ (hheld' i) le_rfl hsum.1 (hportions i) hsum.2 ?_ (.refl _) hreceived
        rw [hleft]
        ring
  · exact iff_of_true (fun i => ⟨rfl, rfl⟩) (.inl (Option.some_ne_none idx))

/-! ## Every removal -/

theorem nonneg_fromVol (volume : ℚ) : (fromVol volume).Nonneg := by
  intro i
  rw [getMoles_of_le (m := fromVol volume) (Nat.zero_le i)]

/-- **Removal keeps matter** exactly if nothing is removed, or no amount is rounded past what the
source holds and no listed portions are more than it holds or than the destination takes. -/
theorem removal_kept_iff (table : GasTable ℚ) (hsource : source.immutable = false)
    (hinto : into.immutable = false) (hheld : source.Nonneg) (hheld' : into.Nonneg) :
    (∀ ratio, RemovalKept source into (source.removeRatioInto ratio into) ↔
      ratio ≤ 0 ∨ source.RoundsWithin ratio) ∧
    (∀ amount, RemovalKept source into (source.removeInto amount into) ↔
      amount / source.totalMoles ≤ 0 ∨ source.RoundsWithin (amount / source.totalMoles)) ∧
    (∀ amount, RemovalKept source (fromVol source.volume) (source.remove amount) ↔
      amount / source.totalMoles ≤ 0 ∨ source.RoundsWithin (amount / source.totalMoles)) ∧
    ∀ ratio gases, TransferKept source into gases
        (run (transferGasesTo (D := ℚ) table ratio gases) (source, into)) ↔
      TransferFits table source into (max 0 (min ratio 1)) gases := by
  refine ⟨?_, ?_, ?_, ?_⟩
  · exact removalKept_iff hsource hinto hheld hheld'
  · intro amount
    exact removalKept_iff hsource hinto hheld hheld' _
  · intro amount
    exact removalKept_iff hsource rfl hheld (nonneg_fromVol _) _
  · exact transferKept_iff hsource hinto hheld hheld'

/-- A mixture that holds one gas. -/
def single (amount : ℚ) : Mixture ℚ := { new with moles := [amount] }

theorem nonneg_single {amount : ℚ} (h : 0 ≤ amount) : (single amount).Nonneg := by
  intro i
  rw [getMoles_eq]
  rcases i with _ | i
  · exact h
  · exact le_refl 0

theorem accepts_of_toBool {transfers : List (Nat × ℚ)} (h : (run (transfers.forM fun transfer =>
    adjustMoles (D := ℚ) table transfer.1 transfer.2) into).1.toBool = true) :
    Accepts table into transfers := by
  unfold Accepts
  generalize (run (transfers.forM fun transfer =>
    adjustMoles (D := ℚ) table transfer.1 transfer.2) into).1 = result at h ⊢
  rcases result with error | value
  · cases h
  · rfl

theorem removal_kept_iff_single :
    RemovalKept (single 10) (fromVol (single 10).volume) ((single 10).remove 5) ∧
      TransferKept (single 10) (fromVol 2500) [0] (run
        (transferGasesTo (D := ℚ) [⟨"o2", 10, .none⟩] (1 / 2) [0]) (single 10, fromVol 2500)) := by
  have hheld : (single 10).Nonneg := nonneg_single (by norm_num)
  obtain ⟨-, -, hremove, htransfer⟩ := removal_kept_iff [⟨"o2", 10, .none⟩] rfl rfl hheld
    (nonneg_fromVol 2500)
  constructor
  · refine (hremove 5).2 (.inr fun i => ?_)
    rcases i with _ | i
    · decide +kernel
    · rw [getMoles_of_le (by simp [single])]
      norm_num [quantize_zero]
  · refine (htransfer (1 / 2) [0]).2 (.inr ⟨accepts_of_toBool (by decide +kernel), fun i hi =>
      .inl ?_⟩)
    rcases i with _ | i
    · norm_num
    · simp at hi

/-- Removing all of an amount that is not on the grid makes more of it. -/
theorem removal_creates : ¬∀ (source into : Mixture ℚ) (ratio : ℚ), source.immutable = false →
    into.immutable = false → source.Nonneg → into.Nonneg →
    RemovalKept source into (source.removeRatioInto ratio into) := by
  intro h
  have hheld : (single (123456 / 100000)).Nonneg := nonneg_single (by norm_num)
  have hkept := h (single (123456 / 100000)) (fromVol 2500) 1 rfl rfl hheld (nonneg_fromVol 2500)
  have hrounds := (removalKept_iff rfl rfl hheld (nonneg_fromVol 2500) 1).1 hkept
  rcases hrounds with hnone | hwithin
  · norm_num at hnone
  · have hpast : ¬quantize ((single (123456 / 100000)).getMoles 0 * min 1 1) ≤
        max ((single (123456 / 100000)).getMoles 0) (1 / 10000) := by decide +kernel
    exact hpast (hwithin 0)

end Mixture

end Legacy

end Dogmos
