import Dogmos.Runs.Live

/-!
# The mixtures that wait

A mixture waits in a continuation slot when the slot holds a continuation about
it.  Operations only make mixtures stop waiting (`Shrinks`), with two exceptions:
a direct request whose sequence stops, and the commit of a reaction stage, which
make one more mixture wait in one slot (`Grows`).
-/

namespace Dogmos

namespace DogmosWorld

open Exec

variable {F D : Type} {w w' w'' : DogmosWorld F}

/-- The mixture waits in the slot. -/
def Waits (w : DogmosWorld F) (slot : ℕ) (mixture : MixtureHandle) : Prop :=
  ∃ entry continuation, w.continuations[slot]? = some entry ∧
    entry.continuation = some continuation ∧ continuation.mixture = mixture

theorem mem_continuationMixtures {mixture : MixtureHandle} :
    mixture ∈ w.continuationMixtures ↔ ∃ slot, w.Waits slot mixture := by
  unfold continuationMixtures Waits
  rw [List.mem_filterMap]
  constructor
  · rintro ⟨entry, hentry, hmixture⟩
    obtain ⟨slot, hslot⟩ := List.mem_iff_getElem?.1 hentry
    obtain ⟨continuation, hcontinuation, hsame⟩ := Option.map_eq_some_iff.1 hmixture
    exact ⟨slot, entry, continuation, hslot, hcontinuation, hsame⟩
  · rintro ⟨slot, entry, continuation, hslot, hcontinuation, hsame⟩
    exact ⟨entry, List.mem_of_getElem? hslot, by rw [hcontinuation, Option.map_some, hsame]⟩

theorem waits_of_requireContinuation {token : ReactionContinuationToken}
    {continuation : ReactionContinuation F}
    (h : w.requireContinuation token = .ok continuation) :
    w.Waits token.slot.toNat continuation.mixture := by
  rw [requireContinuation_eq_ok] at h
  unfold SlotPool.Holds at h
  rw [pool_slots, Option.map_eq_some_iff] at h
  obtain ⟨entry, hentry, hpair⟩ := h
  exact ⟨entry, continuation, hentry, (Prod.mk.inj hpair).2, rfl⟩

/-- What waits in a slot that is written. -/
theorem waits_setContinuation {slot other : ℕ} {entry : ContinuationSlot F} {mixture : MixtureHandle}
    (h : (w.setContinuation slot entry).Waits other mixture) :
    w.Waits other mixture ∧ other ≠ slot ∨
      other = slot ∧ ∃ continuation, entry.continuation = some continuation ∧
        continuation.mixture = mixture := by
  obtain ⟨found, continuation, hfound, hcontinuation, hmixture⟩ := h
  unfold setContinuation at hfound
  dsimp only at hfound
  rw [List.getElem?_set] at hfound
  by_cases hslot : slot = other
  · rw [if_pos hslot] at hfound
    split at hfound
    · cases hfound
      exact .inr ⟨hslot.symm, continuation, hcontinuation, hmixture⟩
    · cases hfound
  · rw [if_neg hslot] at hfound
    exact .inl ⟨⟨found, continuation, hfound, hcontinuation, hmixture⟩, Ne.symm hslot⟩

/-- No slot has a mixture wait in it that did not before. -/
def Shrinks (w w' : DogmosWorld F) : Prop := ∀ slot mixture, w'.Waits slot mixture → w.Waits slot mixture

/-- At most one slot has a mixture wait in it that did not before, and it is the given one. -/
def Grows (mixture : MixtureHandle) (w w' : DogmosWorld F) : Prop :=
  ∃ slot, ∀ other found, w'.Waits other found →
    w.Waits other found ∧ other ≠ slot ∨ other = slot ∧ found = mixture

theorem Shrinks.refl (w : DogmosWorld F) : Shrinks w w := fun _ _ h => h

theorem Shrinks.trans (h : Shrinks w w') (h' : Shrinks w' w'') : Shrinks w w'' :=
  fun slot mixture hwaits => h slot mixture (h' slot mixture hwaits)

theorem Grows.trans_shrinks {mixture : MixtureHandle} (h : Grows mixture w w') (h' : Shrinks w' w'') :
    Grows mixture w w'' := by
  obtain ⟨slot, hslot⟩ := h
  exact ⟨slot, fun other found hwaits => hslot other found (h' other found hwaits)⟩

theorem Shrinks.trans_grows {mixture : MixtureHandle} (h : Shrinks w w') (h' : Grows mixture w' w'') :
    Grows mixture w w'' := by
  obtain ⟨slot, hslot⟩ := h'
  refine ⟨slot, fun other found hwaits => ?_⟩
  rcases hslot other found hwaits with ⟨hold, hne⟩ | hnew
  · exact .inl ⟨h other found hold, hne⟩
  · exact .inr hnew

theorem SameContinuations.shrinks (h : SameContinuations w w') : Shrinks w w' := by
  rintro slot mixture ⟨entry, continuation, hentry, hrest⟩
  rw [h.continuations] at hentry
  exact ⟨entry, continuation, hentry, hrest⟩

theorem SettleStep.shrinks (h : SettleStep w w') : Shrinks w w' := by
  intro slot mixture hwaits
  cases h with
  | rotate token continuation hmixture =>
    rcases final_rotateContinuation w token continuation with heq | ⟨found, hfound, -, heq⟩
    · rwa [heq] at hwaits
    · rw [heq] at hwaits
      rcases waits_setContinuation hwaits with ⟨hold, -⟩ | ⟨rfl, other, hother, rfl⟩
      · exact hold
      · cases hother
        rw [hmixture found hfound]
        exact waits_of_requireContinuation hfound
  | complete token =>
    rcases final_completeContinuation w token with heq | ⟨found, hfound, heq⟩
    · rwa [heq] at hwaits
    · rw [heq] at hwaits
      have hset : (w.setContinuation token.slot.toNat ⟨token.generation, none⟩).Waits slot mixture :=
        hwaits
      rcases waits_setContinuation hset with ⟨hold, -⟩ | ⟨-, other, hother, -⟩
      · exact hold
      · cases hother
  | invalidate p =>
    obtain ⟨entry, continuation, hentry, hcontinuation, hmixture⟩ := hwaits
    rw [continuations_invalidateContinuations, List.getElem?_map, Option.map_eq_some_iff] at hentry
    obtain ⟨found, hfound, rfl⟩ := hentry
    split at hcontinuation
    · cases hcontinuation
    · exact ⟨found, continuation, hfound, hcontinuation, hmixture⟩

/-- An allocation that succeeds has one more mixture wait. -/
theorem waits_allocateContinuation {continuation : ReactionContinuation F}
    {token : ReactionContinuationToken} (h : run (allocateContinuation continuation) w = (.ok token, w'))
    {slot : ℕ} {mixture : MixtureHandle} (hwaits : w'.Waits slot mixture) :
    w.Waits slot mixture ∧ slot ≠ token.slot.toNat ∨
      slot = token.slot.toNat ∧ mixture = continuation.mixture := by
  rcases hfree : w.freeContinuations.getLast? with _ | free
  · rw [run_allocateContinuation_full w continuation hfree] at h
    split at h
    · cases h
    · next hroom =>
      cases h
      have hlength : (UInt32.ofNat w.continuations.length).toNat = w.continuations.length :=
        UInt32.toNat_ofNat_of_lt' (by
          show w.continuations.length < 2 ^ 32
          omega)
      obtain ⟨entry, found, hentry, hcontinuation, hmixture⟩ := hwaits
      dsimp only at hentry ⊢
      rw [hlength]
      rw [List.getElem?_append] at hentry
      by_cases hslot : slot < w.continuations.length
      · rw [if_pos hslot] at hentry
        exact .inl ⟨⟨entry, found, hentry, hcontinuation, hmixture⟩, by omega⟩
      · rw [if_neg hslot, List.getElem?_singleton] at hentry
        split at hentry
        · cases hentry
          cases hcontinuation
          exact .inr ⟨by omega, hmixture.symm⟩
        · cases hentry
  · rw [run_allocateContinuation_free w continuation hfree] at h
    split at h
    · cases h
    · cases h
      have hset : (w.setContinuation free.toNat
          ⟨(w.continuations[free.toNat]?.getD ⟨0, none⟩).generation + 1,
            some continuation⟩).Waits slot mixture := hwaits
      rcases waits_setContinuation hset with hold | ⟨hslot, found, hfound, hmixture⟩
      · exact .inl hold
      · cases hfound
        exact .inr ⟨hslot, hmixture.symm⟩

/-- The slot of a new token holds the continuation. -/
theorem getElem?_allocateContinuation {continuation : ReactionContinuation F}
    {token : ReactionContinuationToken} (h : run (allocateContinuation continuation) w = (.ok token, w'))
    {entry : ContinuationSlot F} (hentry : w'.continuations[token.slot.toNat]? = some entry) :
    entry = ⟨token.generation, some continuation⟩ := by
  rcases hfree : w.freeContinuations.getLast? with _ | free
  · rw [run_allocateContinuation_full w continuation hfree] at h
    split at h
    · cases h
    · next hroom =>
      cases h
      have hlength : (UInt32.ofNat w.continuations.length).toNat = w.continuations.length :=
        UInt32.toNat_ofNat_of_lt' (by
          show w.continuations.length < 2 ^ 32
          omega)
      dsimp only at hentry
      rw [hlength, List.getElem?_append_right (Nat.le_refl _), Nat.sub_self] at hentry
      cases hentry
      rfl
  · rw [run_allocateContinuation_free w continuation hfree] at h
    split at h
    · cases h
    · cases h
      dsimp only at hentry
      rw [List.getElem?_set] at hentry
      split at hentry
      · split at hentry
        · cases hentry
          rfl
        · cases hentry
      · next hslot => exact absurd rfl hslot

/-- The token an allocation hands out is accepted. -/
theorem accepted_allocateContinuation (hpool : PoolFrom w w) {continuation : ReactionContinuation F}
    {token : ReactionContinuationToken}
    (h : run (allocateContinuation continuation) w = (.ok token, w')) :
    w'.requireContinuation token = .ok continuation := by
  have hbounds : token.slot.toNat < w'.continuations.length := by
    rcases hfree : w.freeContinuations.getLast? with _ | free
    · rw [run_allocateContinuation_full w continuation hfree] at h
      split at h
      · cases h
      · next hroom =>
        cases h
        have hlength : (UInt32.ofNat w.continuations.length).toNat = w.continuations.length :=
          UInt32.toNat_ofNat_of_lt' (by
            show w.continuations.length < 2 ^ 32
            omega)
        dsimp only
        rw [hlength, List.length_append, List.length_singleton]
        omega
    · have hmem : free.toNat ∈ w.pool.free := List.mem_map_of_mem (List.mem_of_getLast? hfree)
      obtain ⟨generation, hvacant⟩ := hpool.sound.vacant _ hmem
      rw [pool_slots, Option.map_eq_some_iff] at hvacant
      obtain ⟨entry, hentry, -⟩ := hvacant
      rw [run_allocateContinuation_free w continuation hfree] at h
      split at h
      · cases h
      · cases h
        dsimp only
        rw [List.length_set]
        exact (List.getElem?_eq_some_iff.1 hentry).1
  have hentry := getElem?_allocateContinuation h (List.getElem?_eq_getElem hbounds)
  exact requireContinuation_of_getElem? ((List.getElem?_eq_getElem hbounds).trans
    (congrArg some hentry))

/-- A continuation that is completed at once leaves no trace among what waits. -/
theorem shrinks_of_completed {continuation : ReactionContinuation F}
    {token : ReactionContinuationToken} (h : run (allocateContinuation continuation) w = (.ok token, w')) :
    Shrinks w ((completeContinuation token).final w') := by
  intro slot mixture hwaits
  rcases final_completeContinuation w' token with heq | ⟨found, hfound, heq⟩
  · rw [heq] at hwaits
    rcases waits_allocateContinuation h hwaits with ⟨hold, -⟩ | ⟨rfl, -⟩
    · exact hold
    · -- the new token is accepted, so completing it cannot have failed
      obtain ⟨entry, other, hentry, -, -⟩ := hwaits
      have hheld := getElem?_allocateContinuation h hentry
      have haccepted : w'.requireContinuation token = .ok continuation :=
        requireContinuation_of_getElem? (hentry.trans (congrArg some hheld))
      have hfinal : (completeContinuation token).final w' =
          w'.freeContinuation token.slot.toNat token.generation := by
        unfold final
        rw [run_completeContinuation, haccepted]
      rw [hfinal] at heq
      have hslot := congrArg (fun v => v.continuations[token.slot.toNat]?) heq
      have hlength := (List.getElem?_eq_some_iff.1 hentry).1
      unfold freeContinuation setContinuation at hslot
      dsimp only at hslot
      rw [List.getElem?_set_self hlength, hentry, hheld] at hslot
      cases hslot
  · rw [heq] at hwaits
    have hset : (w'.setContinuation token.slot.toNat ⟨token.generation, none⟩).Waits slot mixture :=
      hwaits
    rcases waits_setContinuation hset with ⟨hold, hne⟩ | ⟨-, other, hother, -⟩
    · rcases waits_allocateContinuation h hold with ⟨hbefore, -⟩ | ⟨hslot, -⟩
      · exact hbefore
      · exact absurd hslot hne
    · cases hother

theorem grows_allocateContinuation {continuation : ReactionContinuation F}
    {token : ReactionContinuationToken}
    (h : run (allocateContinuation continuation) w = (.ok token, w')) :
    Grows continuation.mixture w w' :=
  ⟨token.slot.toNat, fun _ _ hwaits => waits_allocateContinuation h hwaits⟩

/-- An allocation that fails has no mixture wait that did not. -/
theorem shrinks_allocateContinuation {continuation : ReactionContinuation F} {error : WorldError}
    (h : run (allocateContinuation continuation) w = (.error error, w')) : Shrinks w w' := by
  rcases hfree : w.freeContinuations.getLast? with _ | free
  · rw [run_allocateContinuation_full w continuation hfree] at h
    split at h
    · cases h
      exact .refl w
    · cases h
  · rw [run_allocateContinuation_free w continuation hfree] at h
    split at h
    · cases h
      exact fun _ _ hwaits => hwaits
    · cases h

/-- There is room for one more continuation. -/
def HasRoom (w : DogmosWorld F) : Prop :=
  match w.freeContinuations.getLast? with
  | some slot => (w.continuations[slot.toNat]?.getD ⟨0, none⟩).generation ≠ maxRevision
  | none => w.pendingReactionContinuations < w.maxContinuations ∧ w.continuations.length < 2 ^ 32

theorem hasRoom_of_allocated {continuation : ReactionContinuation F}
    {token : ReactionContinuationToken}
    (h : run (allocateContinuation continuation) w = (.ok token, w')) : w.HasRoom := by
  unfold HasRoom
  rcases hfree : w.freeContinuations.getLast? with _ | free
  · rw [run_allocateContinuation_full w continuation hfree] at h
    split at h
    · cases h
    · next hfull =>
      rw [not_or, UInt32.not_le, Nat.not_le] at hfull
      exact hfull
  · rw [run_allocateContinuation_free w continuation hfree] at h
    split at h
    · cases h
    · assumption

/-! ## Requests and batches -/

theorem batchClosed_shrinks [FloatFormat F] (w : DogmosWorld F) : BatchClosed (Shrinks w) :=
  SameContinuations.batchClosed (fun _ _ hsame h => h.trans hsame.shrinks)
    fun _ _ hstep h => h.trans hstep.shrinks

variable [FloatFormat F]

/-- The last part of a direct request: its mixture is written and its events are added. -/
def finishReact (mixture : MixtureHandle) (sequence : ReactionSequence F)
    (events : List (WorldEvent F)) : WorldM F ReactionProgress := do
  writeSequence mixture sequence
  modify fun w => w.pushEvents (sequence.events ++ events)
  return { flags := sequence.flags, workItems := sequence.workItems
           pending := sequence.pending.isSome }

theorem keeps_finishReact {I : DogmosWorld F → Prop} (hI : ResumeClosed I) (mixture : MixtureHandle)
    (sequence : ReactionSequence F) (events : List (WorldEvent F)) :
    Keeps I (finishReact mixture sequence events) := by
  refine keeps_bind (keeps_writeSequence hI.toWriteClosed _ _) fun _ => ?_
  exact keeps_bind (keeps_modify fun w hw => hI.events w _ hw) fun _ => keeps_pure _

/-- **What a direct request can do**: nothing, run a sequence that does not stop, fail because
there is no room for a sequence that stops, or have its mixture wait. -/
theorem reactMixture_cases (w : DogmosWorld F) (mixture : MixtureHandle) (target : GameplayHandle)
    (threshold : Option F) (eventLimit : UInt32) (clock : Nat → F) :
    (reactMixture mixture target threshold eventLimit clock).final w = w ∨
      (∃ sequence,
        (reactMixture mixture target threshold eventLimit clock).final w =
          (finishReact mixture sequence []).final w) ∨
      ∃ sequence continuation,
        w.evaluateReactionSequence target mixture 0 0 threshold clock = .ok sequence ∧
        w.SequencePauses mixture target threshold eventLimit clock ∧
        continuation.mixture = mixture ∧
        ((∃ error, run (allocateContinuation continuation) w =
            (.error error, (reactMixture mixture target threshold eventLimit clock).final w)) ∨
          ∃ token v events, run (allocateContinuation continuation) w = (.ok token, v) ∧
            (reactMixture mixture target threshold eventLimit clock).final w =
              (finishReact mixture sequence events).final v) := by
  unfold reactMixture final
  rw [run_bind, run_check]
  rcases hthreshold : validateReactionProfileThreshold threshold with error | _
  · exact .inl rfl
  · dsimp only
    rw [run_bind, run_check]
    rcases hsequence : w.evaluateReactionSequence target mixture 0 0 threshold clock with
      error | sequence
    · exact .inl rfl
    · dsimp only
      rw [run_bind, run_check]
      rcases hcapacity : w.requireEventCapacity sequence.eventCount
        (min w.maxEvents eventLimit).toNat with error | _
      · exact .inl rfl
      · dsimp only
        rcases hpending : sequence.pending with _ | pending
        · refine .inr (.inl ⟨sequence, ?_⟩)
          unfold finishReact
          rw [hpending]
          rfl
        · refine .inr (.inr ⟨sequence, { turf := none, mixture, target
                                         nextReactionIndex := pending.nextReactionIndex
                                         reactionProfileThresholdMs := threshold }, rfl, ?_, rfl, ?_⟩)
          · exact ⟨sequence, hthreshold, hsequence, hcapacity, by rw [hpending]; rfl⟩
          · dsimp only
            rw [run_bind]
            rcases run (allocateContinuation (F := F) _) w with ⟨error | token, v⟩
            · exact .inl ⟨error, rfl⟩
            · refine .inr ⟨token, v, [dmReactionEvent
                { turf := none, mixture, target, nextReactionIndex := pending.nextReactionIndex
                  reactionProfileThresholdMs := threshold } pending token], rfl, ?_⟩
              unfold finishReact
              rw [hpending]
              rfl

/-- **A direct request** has its mixture wait when its sequence stops and there is room, and no
mixture otherwise. -/
theorem reactMixture_waits (w : DogmosWorld F) (mixture : MixtureHandle) (target : GameplayHandle)
    (threshold : Option F) (eventLimit : UInt32) (clock : Nat → F) :
    Shrinks w ((reactMixture mixture target threshold eventLimit clock).final w) ∨
      w.SequencePauses mixture target threshold eventLimit clock ∧ w.HasRoom ∧
        Grows mixture w ((reactMixture mixture target threshold eventLimit clock).final w) := by
  have hfinish : ∀ (v : DogmosWorld F) sequence events, Shrinks v ((finishReact mixture sequence events).final v) :=
    fun v sequence events =>
      keeps_finishReact (batchClosed_shrinks v).toResumeClosed mixture sequence events v (.refl v)
  rcases reactMixture_cases w mixture target threshold eventLimit clock with
    heq | ⟨sequence, heq⟩ | ⟨sequence, continuation, -, hpauses, rfl, ⟨error, hrun⟩ |
      ⟨token, v, events, hrun, heq⟩⟩
  · rw [heq]
    exact .inl (.refl w)
  · rw [heq]
    exact .inl (hfinish w sequence [])
  · exact .inl (shrinks_allocateContinuation hrun)
  · rw [heq]
    refine .inr ⟨hpauses, hasRoom_of_allocated hrun, ?_⟩
    exact (grows_allocateContinuation hrun).trans_shrinks (hfinish v sequence events)

end DogmosWorld

end Dogmos
