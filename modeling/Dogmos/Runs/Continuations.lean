import Dogmos.Lib.SlotPool
import Dogmos.Runs.Requests

/-!
# Continuations as a pool of slots

The continuations of a world are a pool of generational slots.  Every step of
continuations is a sequence of steps of that pool (`PoolFrom.continuations`), so a
token that was completed, rotated or invalidated is never accepted again.
-/

namespace Dogmos

namespace DogmosWorld

open Exec

variable {F : Type}

/-! ## The steps, as equations -/

/-- What `allocate_continuation` does when a slot is free. -/
theorem run_allocateContinuation_free (w : DogmosWorld F) (continuation : ReactionContinuation F)
    {slot : UInt32} (hfree : w.freeContinuations.getLast? = some slot) :
    run (allocateContinuation continuation) w =
      if (w.continuations[slot.toNat]?.getD ⟨0, none⟩).generation = maxRevision then
        (.error .reactionContinuationCapacityExceeded,
          { w with freeContinuations := w.freeContinuations.dropLast })
      else
        (.ok ⟨slot, (w.continuations[slot.toNat]?.getD ⟨0, none⟩).generation + 1⟩,
          { w with
            freeContinuations := w.freeContinuations.dropLast
            continuations := w.continuations.set slot.toNat
              ⟨(w.continuations[slot.toNat]?.getD ⟨0, none⟩).generation + 1, some continuation⟩ }) := by
  unfold allocateContinuation
  rw [run_bind, run_get]
  simp only [hfree]
  rw [run_bind, run_modify]
  dsimp only
  split <;> rfl

/-- What `allocate_continuation` does when no slot is free. -/
theorem run_allocateContinuation_full (w : DogmosWorld F) (continuation : ReactionContinuation F)
    (hfree : w.freeContinuations.getLast? = none) :
    run (allocateContinuation continuation) w =
      if w.maxContinuations ≤ w.pendingReactionContinuations ∨ 2 ^ 32 ≤ w.continuations.length then
        (.error .reactionContinuationCapacityExceeded, w)
      else
        (.ok ⟨UInt32.ofNat w.continuations.length, 1⟩,
          { w with continuations := w.continuations ++ [⟨1, some continuation⟩] }) := by
  unfold allocateContinuation
  rw [run_bind, run_get]
  simp only [hfree]
  by_cases hpending : w.maxContinuations ≤ w.pendingReactionContinuations
  · simp only [hpending, true_or, if_true]
    rfl
  · by_cases hlength : 2 ^ 32 ≤ w.continuations.length
    · simp only [hpending, hlength, or_true, if_true, if_false]
      rfl
    · simp only [hpending, hlength, or_self, if_false]
      rfl

theorem run_completeContinuation (w : DogmosWorld F) (token : ReactionContinuationToken) :
    run (completeContinuation token) w =
      match w.requireContinuation token with
      | .ok _ => (.ok ⟨⟩, w.freeContinuation token.slot.toNat token.generation)
      | .error error => (.error error, w) := by
  unfold completeContinuation
  rw [run_bind, run_check]
  rcases w.requireContinuation token with error | continuation <;> rfl

theorem run_rotateContinuation (w : DogmosWorld F) (token : ReactionContinuationToken)
    (continuation : ReactionContinuation F) :
    run (rotateContinuation token continuation) w =
      match w.requireContinuation token with
      | .ok _ =>
        if token.generation = maxRevision then (.error .reactionContinuationCapacityExceeded, w)
        else
          (.ok ⟨token.slot, token.generation + 1⟩,
            w.setContinuation token.slot.toNat ⟨token.generation + 1, some continuation⟩)
      | .error error => (.error error, w) := by
  unfold rotateContinuation
  rw [run_bind, run_check]
  rcases w.requireContinuation token with error | found
  · rfl
  · dsimp only
    split <;> rfl

/-- A step of continuations does not read the reaction scratch. -/
theorem run_allocateContinuation_dropped (w : DogmosWorld F)
    (continuation : ReactionContinuation F) :
    run (allocateContinuation continuation) { w with stageReactions := none } =
      ((run (allocateContinuation continuation) w).1,
        { (run (allocateContinuation continuation) w).2 with stageReactions := none }) := by
  rcases hfree : w.freeContinuations.getLast? with _ | slot
  · rw [run_allocateContinuation_full w continuation hfree,
      run_allocateContinuation_full { w with stageReactions := none } continuation hfree]
    by_cases hfull : w.maxContinuations ≤ w.pendingReactionContinuations ∨
        2 ^ 32 ≤ w.continuations.length
    · rw [if_pos hfull]
      exact if_pos hfull
    · rw [if_neg hfull]
      exact if_neg hfull
  · rw [run_allocateContinuation_free w continuation hfree,
      run_allocateContinuation_free { w with stageReactions := none } continuation hfree]
    by_cases hlast : (w.continuations[slot.toNat]?.getD ⟨0, none⟩).generation = maxRevision
    · simp only [hlast, if_true]
    · simp only [hlast, if_false]

theorem run_completeContinuation_dropped (w : DogmosWorld F) (token : ReactionContinuationToken) :
    run (completeContinuation token) { w with stageReactions := none } =
      ((run (completeContinuation token) w).1,
        { (run (completeContinuation token) w).2 with stageReactions := none }) := by
  rw [run_completeContinuation, run_completeContinuation]
  show (match w.requireContinuation token with
    | .ok _ => _
    | .error error => _) = _
  rcases w.requireContinuation token with error | continuation <;> rfl

/-! ## The pool -/

/-- The continuations of a world, as a pool. -/
def pool (w : DogmosWorld F) : SlotPool (ReactionContinuation F) :=
  { slots := w.continuations.map fun entry => (entry.generation.toNat, entry.continuation)
    free := w.freeContinuations.map UInt32.toNat }

theorem pool_slots (w : DogmosWorld F) (slot : ℕ) :
    w.pool.slots[slot]? =
      w.continuations[slot]?.map fun entry => (entry.generation.toNat, entry.continuation) :=
  List.getElem?_map

theorem live_pool (w : DogmosWorld F) :
    w.pool.live = w.continuations.countP fun slot => slot.continuation.isSome := by
  unfold SlotPool.live pool
  rw [List.countP_map]
  rfl

/-- A slot that holds a continuation accepts the token of its generation. -/
theorem requireContinuation_of_getElem? {w : DogmosWorld F} {token : ReactionContinuationToken}
    {continuation : ReactionContinuation F}
    (h : w.continuations[token.slot.toNat]? = some ⟨token.generation, some continuation⟩) :
    w.requireContinuation token = .ok continuation := by
  unfold requireContinuation
  rw [h]
  exact if_neg (not_not_intro rfl)

/-- A token is accepted when the pool holds its continuation. -/
theorem requireContinuation_eq_ok {w : DogmosWorld F} {token : ReactionContinuationToken}
    {continuation : ReactionContinuation F} :
    w.requireContinuation token = .ok continuation ↔
      w.pool.Holds token.slot.toNat token.generation.toNat continuation := by
  unfold SlotPool.Holds requireContinuation
  rw [pool_slots]
  rcases w.continuations[token.slot.toNat]? with _ | ⟨generation, found⟩
  · simp [throw, throwThe, MonadExceptOf.throw]
  · by_cases hgeneration : generation = token.generation
    · subst hgeneration
      cases found <;> simp [throw, throwThe, MonadExceptOf.throw, pure, Except.pure]
    · have hne : generation.toNat ≠ token.generation.toNat :=
        fun heq => hgeneration (UInt32.toNat_inj.1 heq)
      simp [hgeneration, hne, throw, throwThe, MonadExceptOf.throw]

theorem pool_freeContinuation (w : DogmosWorld F) {slot : ℕ} (hslot : slot < 2 ^ 32)
    (generation : UInt32) :
    (w.freeContinuation slot generation).pool =
      ⟨w.pool.slots.set slot (generation.toNat, none), w.pool.free ++ [slot]⟩ := by
  have hof : (UInt32.ofNat slot).toNat = slot := UInt32.toNat_ofNat_of_lt' hslot
  simp [pool, freeContinuation, setContinuation, List.map_set, hof]

/-- The highest generation of a slot. -/
abbrev generationLimit : ℕ := maxRevision.toNat

theorem toNat_succ_generation {generation : UInt32} (h : generation ≠ maxRevision) :
    (generation + 1).toNat = generation.toNat + 1 := by
  have hlt : generation.toNat < 2 ^ 32 - 1 := by
    have hle := generation.toNat_lt
    have hne : generation.toNat ≠ maxRevision.toNat := fun heq => h (UInt32.toNat_inj.1 heq)
    have hmax : maxRevision.toNat = 2 ^ 32 - 1 := rfl
    omega
  rw [UInt32.toNat_add]
  show (generation.toNat + 1) % 2 ^ 32 = _
  omega

/-- A world whose continuations the steps of a pool lead to. -/
structure PoolFrom (origin w : DogmosWorld F) : Prop where
  capacity : w.maxContinuations = origin.maxContinuations
  length : w.continuations.length ≤ 2 ^ 32
  sound : w.pool.Sound w.maxContinuations.toNat
  steps : SlotPool.Steps origin.maxContinuations.toNat generationLimit origin.pool w.pool

namespace PoolFrom

variable {origin w w' : DogmosWorld F}

theorem of_same (h : PoolFrom origin w) (hcontinuations : w'.continuations = w.continuations)
    (hfree : w'.freeContinuations = w.freeContinuations)
    (hcapacity : w'.maxContinuations = w.maxContinuations) : PoolFrom origin w' := by
  have hpool : w'.pool = w.pool := by
    unfold pool
    rw [hcontinuations, hfree]
  refine ⟨hcapacity.trans h.capacity, ?_, ?_, ?_⟩
  · rw [hcontinuations]
    exact h.length
  · rw [hpool, hcapacity]
    exact h.sound
  · rw [hpool]
    exact h.steps

theorem step (h : PoolFrom origin w) (hcapacity : w'.maxContinuations = w.maxContinuations)
    (hlength : w'.continuations.length ≤ 2 ^ 32)
    (hstep : SlotPool.Step w.maxContinuations.toNat generationLimit w.pool w'.pool) :
    PoolFrom origin w' := by
  refine ⟨hcapacity.trans h.capacity, hlength, ?_, ?_⟩
  · rw [hcapacity]
    exact h.sound.step hstep
  · rw [h.capacity] at hstep
    exact h.steps.tail hstep

/-- Allocation takes the last free slot, retires it when it is exhausted, or adds a slot. -/
theorem step_allocate (h : PoolFrom origin w) (continuation : ReactionContinuation F) :
    let w' := (allocateContinuation continuation).final w
    (w'.continuations = w.continuations ∧ w'.freeContinuations = w.freeContinuations ∨
      SlotPool.Step w.maxContinuations.toNat generationLimit w.pool w'.pool) ∧
      w'.maxContinuations = w.maxContinuations ∧ w'.continuations.length ≤ 2 ^ 32 := by
  dsimp only [final]
  rcases hfree : w.freeContinuations.getLast? with _ | slot
  · rw [run_allocateContinuation_full w continuation hfree]
    by_cases hfull : w.maxContinuations ≤ w.pendingReactionContinuations ∨
        2 ^ 32 ≤ w.continuations.length
    · rw [if_pos hfull]
      exact ⟨.inl ⟨rfl, rfl⟩, rfl, h.length⟩
    · rw [if_neg hfull]
      rw [not_or, UInt32.not_le, Nat.not_le] at hfull
      refine ⟨.inr ?_, rfl, ?_⟩
      · have hlive : w.pool.live < w.maxContinuations.toNat := by
          rw [live_pool]
          have hlt := UInt32.lt_iff_toNat_lt.1 hfull.1
          have hmax := w.maxContinuations.toNat_lt
          unfold pendingReactionContinuations UInt32.ofNatClamp at hlt
          split at hlt
          · next hsize =>
            rw [UInt32.toNat_ofNatLT] at hlt
            exact hlt
          · have htop : (UInt32.ofNatLT (UInt32.size - 1) (by decide)).toNat = 2 ^ 32 - 1 := rfl
            omega
        have hnil : w.pool.free = [] := by
          rw [List.getLast?_eq_none_iff] at hfree
          simp [pool, hfree]
        have hstep : SlotPool.Step _ generationLimit w.pool _ := .append continuation hnil hlive
        convert hstep using 1
        simp [pool]
      · simp only [List.length_append, List.length_singleton]
        omega
  · rw [run_allocateContinuation_free w continuation hfree]
    have hlast : w.pool.free.getLast? = some slot.toNat := by
      show (w.freeContinuations.map UInt32.toNat).getLast? = _
      rw [List.getLast?_map, hfree]
      rfl
    obtain ⟨generation, hslot⟩ := h.sound.vacant slot.toNat (List.mem_of_getLast? hlast)
    have hentry := hslot
    rw [pool_slots, Option.map_eq_some_iff] at hentry
    obtain ⟨entry, hentry, hpair⟩ := hentry
    obtain ⟨rfl, -⟩ := Prod.mk.inj hpair
    rw [hentry]
    dsimp only [Option.getD_some]
    by_cases hgeneration : entry.generation = maxRevision
    · rw [if_pos hgeneration]
      refine ⟨.inr ?_, rfl, h.length⟩
      rw [hgeneration] at hslot
      have hstep : SlotPool.Step w.maxContinuations.toNat _ w.pool _ := .retire hlast hslot
      convert hstep using 1
      simp [pool]
    · rw [if_neg hgeneration]
      refine ⟨.inr ?_, rfl, ?_⟩
      · have hstep : SlotPool.Step w.maxContinuations.toNat generationLimit w.pool _ :=
          .reuse continuation hlast hslot
        convert hstep using 1
        simp [pool, List.map_set, toNat_succ_generation hgeneration]
      · rw [List.length_set]
        exact h.length

end PoolFrom

/-! ## Settling -/

/-- **The rule of invalidation**: what freeing an occupied slot keeps, invalidation keeps. -/
theorem invalidateContinuations_induct {I : DogmosWorld F → Prop}
    (hI : ∀ w slot generation continuation, I w →
      w.continuations[slot]? = some ⟨generation, some continuation⟩ →
      I (w.freeContinuation slot generation))
    (w : DogmosWorld F) (p : ReactionContinuation F → Bool) (hw : I w) :
    I (w.invalidateContinuations p) := by
  have hfold : ∀ (rest done : List (ContinuationSlot F)) (w : DogmosWorld F), I w →
      w.continuations = done ++ rest →
      I ((rest.zipIdx done.length).foldl (fun w entry =>
        if entry.1.continuation.any p then w.freeContinuation entry.2 entry.1.generation else w) w) := by
    intro rest
    induction rest with
    | nil => exact fun _ _ hw _ => hw
    | cons entry rest ih =>
      intro done w hw hcontinuations
      rw [List.zipIdx_cons, List.foldl_cons]
      have hlength : ∀ entry' : ContinuationSlot F, (done ++ [entry']).length = done.length + 1 :=
        fun _ => by simp
      dsimp only
      rcases entry with ⟨generation, found⟩
      by_cases hp : found.any p
      · rw [if_pos hp, ← hlength ⟨generation, none⟩]
        obtain ⟨continuation, rfl, -⟩ := (Option.any_eq_true p found).1 hp
        refine ih _ _ (hI w _ _ continuation hw ?_) ?_
        · rw [hcontinuations, List.getElem?_append_right le_rfl, Nat.sub_self]
          rfl
        · show w.continuations.set done.length ⟨generation, none⟩ = _
          rw [hcontinuations, List.set_append_right _ _ le_rfl, Nat.sub_self]
          simp
      · rw [if_neg hp, ← hlength ⟨generation, found⟩]
        refine ih _ _ hw ?_
        rw [hcontinuations]
        simp
  exact hfold w.continuations [] w hw rfl

/-- Invalidation vacates the slots whose continuations it is about, and no other. -/
theorem continuations_invalidateContinuations (w : DogmosWorld F)
    (p : ReactionContinuation F → Bool) :
    (w.invalidateContinuations p).continuations = w.continuations.map fun entry =>
      if entry.continuation.any p then ⟨entry.generation, none⟩ else entry := by
  have hfold : ∀ (rest done : List (ContinuationSlot F)) (w : DogmosWorld F),
      w.continuations = done ++ rest →
      ((rest.zipIdx done.length).foldl (fun w entry =>
        if entry.1.continuation.any p then w.freeContinuation entry.2 entry.1.generation
        else w) w).continuations = done ++ rest.map fun entry =>
          if entry.continuation.any p then ⟨entry.generation, none⟩ else entry := by
    intro rest
    induction rest with
    | nil => exact fun _ _ hw => hw
    | cons entry rest ih =>
      intro done w hw
      have hlength : ∀ entry' : ContinuationSlot F, (done ++ [entry']).length = done.length + 1 :=
        fun _ => by simp
      rw [List.zipIdx_cons, List.foldl_cons, List.map_cons]
      dsimp only
      by_cases hp : entry.continuation.any p
      · rw [if_pos hp, if_pos hp, ← hlength ⟨entry.generation, none⟩]
        have hset : (w.freeContinuation done.length entry.generation).continuations =
            (done ++ [⟨entry.generation, none⟩]) ++ rest := by
          show w.continuations.set done.length ⟨entry.generation, none⟩ = _
          rw [hw, List.set_append_right _ _ le_rfl, Nat.sub_self]
          simp
        rw [ih _ _ hset, List.append_assoc, List.singleton_append]
      · rw [if_neg hp, if_neg hp, ← hlength entry]
        have hkept : w.continuations = (done ++ [entry]) ++ rest := by
          rw [hw]
          simp
        rw [ih _ _ hkept, List.append_assoc, List.singleton_append]
  exact hfold w.continuations [] w rfl

section Settle

variable {origin w w' : DogmosWorld F}

theorem pool_setContinuation (w : DogmosWorld F) (slot : ℕ) (entry : ContinuationSlot F) :
    (w.setContinuation slot entry).pool =
      ⟨w.pool.slots.set slot (entry.generation.toNat, entry.continuation), w.pool.free⟩ := by
  simp [pool, setContinuation, List.map_set]

/-- A rotation changes nothing or gives the slot of an accepted token its next generation. -/
theorem final_rotateContinuation (w : DogmosWorld F) (token : ReactionContinuationToken)
    (continuation : ReactionContinuation F) :
    (rotateContinuation token continuation).final w = w ∨
      ∃ found, w.requireContinuation token = .ok found ∧ token.generation ≠ maxRevision ∧
        (rotateContinuation token continuation).final w =
          w.setContinuation token.slot.toNat ⟨token.generation + 1, some continuation⟩ := by
  dsimp only [final]
  rw [run_rotateContinuation]
  rcases hrequire : w.requireContinuation token with error | found
  · exact .inl rfl
  · dsimp only
    by_cases hgeneration : token.generation = maxRevision
    · rw [if_pos hgeneration]
      exact .inl rfl
    · rw [if_neg hgeneration]
      exact .inr ⟨found, rfl, hgeneration, rfl⟩

theorem final_completeContinuation (w : DogmosWorld F) (token : ReactionContinuationToken) :
    (completeContinuation token).final w = w ∨
      ∃ found, w.requireContinuation token = .ok found ∧
        (completeContinuation token).final w =
          w.freeContinuation token.slot.toNat token.generation := by
  dsimp only [final]
  rw [run_completeContinuation]
  rcases hrequire : w.requireContinuation token with error | found
  · exact .inl rfl
  · exact .inr ⟨found, rfl, rfl⟩

namespace PoolFrom

theorem rotate (h : PoolFrom origin w) {slot : ℕ} {generation : UInt32}
    {found : ReactionContinuation F} (hholds : w.pool.Holds slot generation.toNat found)
    (hgeneration : generation ≠ maxRevision) (continuation : ReactionContinuation F) :
    PoolFrom origin (w.setContinuation slot ⟨generation + 1, some continuation⟩) := by
  refine h.step rfl ?_ ?_
  · show (w.continuations.set slot _).length ≤ 2 ^ 32
    rw [List.length_set]
    exact h.length
  · rw [pool_setContinuation, toNat_succ_generation hgeneration]
    exact .rotate continuation hholds

theorem free (h : PoolFrom origin w) {slot : ℕ} (hslot : slot < 2 ^ 32) {generation : UInt32}
    {found : ReactionContinuation F} (hholds : w.pool.Holds slot generation.toNat found) :
    PoolFrom origin (w.freeContinuation slot generation) := by
  refine h.step rfl ?_ ?_
  · show (w.continuations.set slot _).length ≤ 2 ^ 32
    rw [List.length_set]
    exact h.length
  · rw [pool_freeContinuation w hslot]
    exact .vacate hholds

theorem invalidate (h : PoolFrom origin w) (p : ReactionContinuation F → Bool) :
    PoolFrom origin (w.invalidateContinuations p) := by
  refine invalidateContinuations_induct (I := PoolFrom origin) ?_ w p h
  intro w slot generation continuation hw hentry
  have hlt : slot < 2 ^ 32 := lt_of_lt_of_le (List.getElem?_eq_some_iff.1 hentry).1 hw.length
  have hholds : w.pool.Holds slot generation.toNat continuation := by
    unfold SlotPool.Holds
    rw [pool_slots, hentry]
    rfl
  exact hw.free hlt hholds

theorem settle (h : PoolFrom origin w) (hstep : SettleStep w w') : PoolFrom origin w' := by
  cases hstep with
  | rotate token continuation _ =>
    rcases final_rotateContinuation w token continuation with heq | ⟨found, hfound, hgeneration, heq⟩
    · rw [heq]
      exact h
    · rw [heq]
      exact h.rotate (requireContinuation_eq_ok.1 hfound) hgeneration continuation
  | complete token =>
    rcases final_completeContinuation w token with heq | ⟨found, hfound, heq⟩
    · rw [heq]
      exact h
    · rw [heq]
      exact h.free token.slot.toNat_lt (requireContinuation_eq_ok.1 hfound)
  | invalidate p => exact h.invalidate p

theorem allocate (h : PoolFrom origin w) (continuation : ReactionContinuation F) :
    PoolFrom origin ((allocateContinuation continuation).final w) := by
  obtain ⟨hstep, hcapacity, hlength⟩ := h.step_allocate continuation
  rcases hstep with ⟨hcontinuations, hfree⟩ | hstep
  · exact h.of_same hcontinuations hfree hcapacity
  · exact h.step hcapacity hlength hstep

/-- **Every step of continuations is a step of the pool.** -/
theorem continuations (h : PoolFrom origin w) (hstep : ContinuationStep w w') :
    PoolFrom origin w' := by
  cases hstep with
  | allocate continuation => exact h.allocate continuation
  | settle hstep => exact h.settle hstep

end PoolFrom

/-- Settling keeps the free list full. -/
theorem full_settle (hlength : w.continuations.length ≤ 2 ^ 32) (hfull : w.pool.Full)
    (hstep : SettleStep w w') : w'.pool.Full := by
  cases hstep with
  | rotate token continuation _ =>
    rcases final_rotateContinuation w token continuation with heq | ⟨found, hfound, hgeneration, heq⟩
    · rw [heq]
      exact hfull
    · rw [heq, pool_setContinuation, toNat_succ_generation hgeneration]
      exact hfull.rotate continuation (requireContinuation_eq_ok.1 hfound)
  | complete token =>
    rcases final_completeContinuation w token with heq | ⟨found, hfound, heq⟩
    · rw [heq]
      exact hfull
    · rw [heq, pool_freeContinuation w token.slot.toNat_lt]
      exact hfull.vacate (requireContinuation_eq_ok.1 hfound)
  | invalidate p =>
    refine (invalidateContinuations_induct
      (I := fun w => w.continuations.length ≤ 2 ^ 32 ∧ w.pool.Full) ?_ w p ⟨hlength, hfull⟩).2
    rintro w slot generation continuation ⟨hlength, hfull⟩ hentry
    have hlt : slot < 2 ^ 32 := lt_of_lt_of_le (List.getElem?_eq_some_iff.1 hentry).1 hlength
    refine ⟨?_, ?_⟩
    · show (w.continuations.set slot _).length ≤ 2 ^ 32
      rw [List.length_set]
      exact hlength
    · rw [pool_freeContinuation w hlt]
      refine hfull.vacate (a := continuation) ?_
      unfold SlotPool.Holds
      rw [pool_slots, hentry]
      rfl

/-- Allocation keeps the free list full unless the next free slot is exhausted. -/
theorem full_allocate (h : PoolFrom origin w) (hfull : w.pool.Full)
    (hnext : ¬w.pool.Exhausted generationLimit) (continuation : ReactionContinuation F) :
    ((allocateContinuation continuation).final w).pool.Full := by
  obtain ⟨hstep, -, -⟩ := h.step_allocate continuation
  rcases hstep with ⟨hcontinuations, hfree⟩ | hstep
  · unfold pool
    rw [hcontinuations, hfree]
    exact hfull
  · exact hfull.step hstep hnext

end Settle

end DogmosWorld

end Dogmos
