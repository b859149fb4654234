import Dogmos.Runs.Batches
import Dogmos.Runs.ReactChunk

/-!
# Continuations over whole runs

The continuations of a world stay within the pool of slots they started in,
whatever operations run (`poolFrom_run`).  So a token is accepted until it is
settled and never again (`accepted_or_revoked`), and no more continuations live
than the capacity allows.

A vacant slot is on the free list, as long as no sequence pauses while the slot
that would be taken next is exhausted: allocation takes the slot off the list
before it finds out that the generation cannot grow (`FullFrom`, `Pauses`).
-/

namespace Dogmos

namespace DogmosWorld

open Exec Chunk

variable {F D : Type}

/-! ## What leaves the continuations alone -/

/-- The two worlds have the same continuations. -/
structure SameContinuations (w w' : DogmosWorld F) : Prop where
  continuations : w'.continuations = w.continuations
  free : w'.freeContinuations = w.freeContinuations
  capacity : w'.maxContinuations = w.maxContinuations

namespace SameContinuations

variable {w w' w'' : DogmosWorld F}

theorem refl (w : DogmosWorld F) : SameContinuations w w := ⟨rfl, rfl, rfl⟩

theorem trans (h : SameContinuations w w') (h' : SameContinuations w' w'') :
    SameContinuations w w'' :=
  ⟨h'.continuations.trans h.continuations, h'.free.trans h.free, h'.capacity.trans h.capacity⟩

theorem pool (h : SameContinuations w w') : w'.pool = w.pool := by
  unfold DogmosWorld.pool
  rw [h.continuations, h.free]

theorem writeMixture (w : DogmosWorld F) (slot : Nat) (f : MixtureRecord F → MixtureRecord F) :
    SameContinuations w (w.writeMixture slot f) := by
  unfold DogmosWorld.writeMixture
  split
  · exact refl w
  · exact ⟨rfl, rfl, rfl⟩

theorem writeTurf (w : DogmosWorld F) (slot : Nat) (f : TurfRecord F → TurfRecord F) :
    SameContinuations w (w.writeTurf slot f) := by
  unfold DogmosWorld.writeTurf
  split
  · exact refl w
  · exact ⟨rfl, rfl, rfl⟩

theorem unitStep [FloatFormat F] (h : UnitStep w w') : SameContinuations w w' := by
  cases h with
  | stageMixture slot id candidate _ _ =>
    unfold DogmosWorld.stageMixture
    split
    · exact refl w
    · exact ⟨rfl, rfl, rfl⟩
  | writePreparedTurf slot id f _ _ =>
    unfold DogmosWorld.writePreparedTurf DogmosWorld.stageTurf
    split
    · split
      · exact refl w
      · exact ⟨rfl, rfl, rfl⟩
    · exact refl w
  | _ => exact ⟨rfl, rfl, rfl⟩

theorem commitClosed (w : DogmosWorld F) : CommitClosed (SameContinuations w) where
  scratch _ _ _ _ _ _ _ _ h := ⟨h.continuations, h.free, h.capacity⟩
  idle _ h := ⟨h.continuations, h.free, h.capacity⟩
  reactions _ _ _ h := ⟨h.continuations, h.free, h.capacity⟩
  token _ h := ⟨h.continuations, h.free, h.capacity⟩
  publish _ _ _ h := ⟨h.continuations, h.free, h.capacity⟩
  events _ _ h := ⟨h.continuations, h.free, h.capacity⟩
  heatActive _ _ h := ⟨h.continuations, h.free, h.capacity⟩

theorem requestClosed [FloatFormat F] {I : DogmosWorld F → Prop}
    (hsame : ∀ w w', SameContinuations w w' → I w → I w') : RequestClosed I where
  writeMixture w slot f _ := hsame _ _ (writeMixture w slot f)
  edges _ _ _ := hsame _ _ ⟨rfl, rfl, rfl⟩
  registries _ _ _ := hsame _ _ ⟨rfl, rfl, rfl⟩
  configuration _ _ _ := hsame _ _ ⟨rfl, rfl, rfl⟩

/-- A property of the continuations that settling keeps is kept by the writes of batches. -/
theorem batchClosed [FloatFormat F] {I : DogmosWorld F → Prop}
    (hsame : ∀ w w', SameContinuations w w' → I w → I w')
    (hsettle : ∀ w w', SettleStep w w' → I w → I w') : BatchClosed I where
  toRequestClosed := requestClosed hsame
  frontier _ _ := hsame _ _ ⟨rfl, rfl, rfl⟩
  events _ _ := hsame _ _ ⟨rfl, rfl, rfl⟩
  settle := hsettle
  writeTurf w slot f := hsame _ _ (writeTurf w slot f)
  putTurf _ _ _ _ := hsame _ _ ⟨rfl, rfl, rfl⟩
  putMixture _ _ _ _ := hsame _ _ ⟨rfl, rfl, rfl⟩
  growTurfs _ _ := hsame _ _ ⟨rfl, rfl, rfl⟩
  growMixtures _ _ := hsame _ _ ⟨rfl, rfl, rfl⟩
  heatActive _ _ := hsame _ _ ⟨rfl, rfl, rfl⟩
  topology _ _ := hsame _ _ ⟨rfl, rfl, rfl⟩
  mixtureTurfs _ _ := hsame _ _ ⟨rfl, rfl, rfl⟩

/-- A step of a chunk leaves the continuations alone, or is a step of them. -/
theorem stageStep [FloatFormat F] [FloatFormat D] (h : StageStep (D := D) w w') :
    SameContinuations w w' ∨ ContinuationStep w w' := by
  have hclaimed : ∀ {α : Type} (v : DogmosWorld F) (cached : Option α),
      SameContinuations v (v.claimed cached) := by
    intro α v cached
    unfold claimed
    split
    · exact refl v
    · exact ⟨rfl, rfl, rfl⟩
  cases h with
  | unit hunit => exact .inl (unitStep hunit)
  | continuations hstep => exact .inr hstep
  | startDiffusion request _ _ =>
    have h := hclaimed (w.opened request) w.cachedDiffusion
    exact .inl ⟨h.continuations, h.free, h.capacity⟩
  | startHeat request _ _ =>
    have h := hclaimed (w.opened request) w.cachedHeat
    exact .inl ⟨h.continuations, h.free, h.capacity⟩
  | startReactions request _ _ =>
    have h := hclaimed (w.opened request) w.cachedReactions
    exact .inl ⟨h.continuations, h.free, h.capacity⟩
  | abort => exact .inl ((commitClosed w).abortStage (refl w))
  | _ => exact .inl ⟨rfl, rfl, rfl⟩

end SameContinuations

/-! ## Every operation is a sequence of steps of the pool -/

section Pool

variable {origin w w' : DogmosWorld F}

theorem PoolFrom.same (h : PoolFrom origin w) (hsame : SameContinuations w w') :
    PoolFrom origin w' := h.of_same hsame.continuations hsame.free hsame.capacity

theorem batchClosed_poolFrom [FloatFormat F] (origin : DogmosWorld F) :
    BatchClosed (PoolFrom origin) :=
  SameContinuations.batchClosed (fun _ _ hsame h => h.same hsame) fun _ _ hstep h => h.settle hstep

variable [FloatFormat F] [FloatFormat D] [FloatCast F D]

theorem poolFrom_step (h : PoolFrom origin w) (op : Op F D) : PoolFrom origin (step w op) := by
  refine keeps_exec_of_batchClosed (batchClosed_poolFrom origin)
    (fun continuation w h => h.allocate continuation) (fun w w' hstep h => ?_) op w h
  rcases SameContinuations.stageStep hstep with hsame | hstep
  · exact h.same hsame
  · exact h.continuations hstep

/-- **Every run is a sequence of steps of the pool.** -/
theorem poolFrom_run (ops : List (Op F D)) (h : PoolFrom origin w) :
    PoolFrom origin (System.run step w ops) := by
  induction ops generalizing w with
  | nil => exact h
  | cons op rest ih => exact ih (poolFrom_step h op)

omit [FloatFormat F] [FloatFormat D] [FloatCast F D] in
theorem poolFrom_self (hlength : w.continuations.length ≤ 2 ^ 32)
    (hsound : w.pool.Sound w.maxContinuations.toNat) : PoolFrom w w :=
  ⟨rfl, hlength, hsound, .refl⟩

omit [FloatFormat F] [FloatFormat D] [FloatCast F D] in
theorem PoolFrom.self (h : PoolFrom origin w) : PoolFrom w w := poolFrom_self h.length h.sound

theorem poolFrom_of_reachable (h : Reachable (D := D) w) : PoolFrom w w := by
  refine reachable_induct (I := fun w => PoolFrom w w) ?_ ?_ h
  · rintro w ⟨_, _, _, _, _, rfl⟩
    exact poolFrom_self (Nat.zero_le _) SlotPool.sound_empty
  · exact fun w op hw => (poolFrom_step hw op).self

end Pool

/-! ## Tokens -/

section Tokens

variable [FloatFormat F] [FloatFormat D] [FloatCast F D] {w w' : DogmosWorld F}
  {token : ReactionContinuationToken} {continuation : ReactionContinuation F}

/-- No operation is ever accepted under the token again. -/
def Revoked (w : DogmosWorld F) (token : ReactionContinuationToken) : Prop :=
  ∀ (ops : List (Op F D)) (continuation : ReactionContinuation F),
    (System.run step w ops).requireContinuation token ≠ .ok continuation

/-- A token that is not accepted any more stays so. -/
theorem revoked_of_lost (haccepted : w.requireContinuation token = .ok continuation)
    (h : PoolFrom w w') (hlost : w'.requireContinuation token ≠ .ok continuation) :
    Revoked (D := D) w' token := by
  intro ops other hother
  rw [requireContinuation_eq_ok] at haccepted hother
  rw [Ne, requireContinuation_eq_ok] at hlost
  have hrun := (poolFrom_run ops h.self).steps
  rw [h.capacity] at hrun
  exact SlotPool.not_holds_of_lost haccepted h.steps hlost hrun hother

/-- Over a run a token stays accepted, with the continuation it names, or is revoked. -/
theorem accepted_or_revoked (h : PoolFrom w w)
    (haccepted : w.requireContinuation token = .ok continuation) (ops : List (Op F D)) :
    (System.run step w ops).requireContinuation token = .ok continuation ∨
      Revoked (D := D) (System.run step w ops) token := by
  by_cases hlost : (System.run step w ops).requireContinuation token = .ok continuation
  · exact .inl hlost
  · exact .inr (revoked_of_lost haccepted (poolFrom_run ops h) hlost)

omit [FloatFormat F] [FloatFormat D] [FloatCast F D] in
/-- A slot that is written with another generation, or vacated, does not accept the token. -/
theorem requireContinuation_setContinuation
    (h : w.requireContinuation token = .ok continuation) (entry : ContinuationSlot F)
    (hentry : entry.generation ≠ token.generation ∨ entry.continuation = none)
    (found : ReactionContinuation F) :
    (w.setContinuation token.slot.toNat entry).requireContinuation token ≠ .ok found := by
  intro hfound
  rw [requireContinuation_eq_ok] at h hfound
  unfold SlotPool.Holds at h hfound
  rw [pool_setContinuation] at hfound
  dsimp only at hfound
  rw [SlotPool.getElem?_set_of_some h, if_pos rfl] at hfound
  obtain ⟨hgeneration, hcontinuation⟩ := Prod.mk.inj (Option.some.inj hfound)
  rcases hentry with hne | hnone
  · exact hne (UInt32.toNat_inj.1 hgeneration)
  · rw [hnone] at hcontinuation
    cases hcontinuation

/-- The token was accepted, and is not any more. -/
structure Lost (w : DogmosWorld F) (token : ReactionContinuationToken) (w' : DogmosWorld F) : Prop where
  accepted : ∃ continuation, w.requireContinuation token = .ok continuation
  pool : PoolFrom w w'
  rejected : ∀ continuation, w'.requireContinuation token ≠ .ok continuation

theorem Lost.revoked (h : Lost w token w') : Revoked (D := D) w' token := by
  obtain ⟨continuation, haccepted⟩ := h.accepted
  exact revoked_of_lost haccepted h.pool (h.rejected continuation)

omit [FloatFormat F] [FloatFormat D] [FloatCast F D] in
theorem Lost.same {w'' : DogmosWorld F} (h : Lost w token w') (hsame : SameContinuations w' w'') :
    Lost w token w'' := by
  refine ⟨h.accepted, h.pool.same hsame, fun continuation hok => h.rejected continuation ?_⟩
  rw [requireContinuation_eq_ok] at hok ⊢
  rwa [hsame.pool] at hok

omit [FloatFormat F] [FloatFormat D] [FloatCast F D] in
theorem lost_completeContinuation (h : PoolFrom w w) :
    Triple (fun v => v = w) (completeContinuation token) (fun _ => Lost w token) fun _ _ => True := by
  rintro v rfl
  have hpool := h.settle (.complete v token)
  unfold final at hpool
  rw [run_completeContinuation] at hpool ⊢
  rcases hrequire : v.requireContinuation token with error | found
  · trivial
  · rw [hrequire] at hpool
    refine ⟨⟨found, hrequire⟩, hpool, ?_⟩
    exact requireContinuation_setContinuation hrequire ⟨token.generation, none⟩ (.inr rfl)

omit [FloatFormat F] [FloatFormat D] [FloatCast F D] in
theorem lost_rotateContinuation (h : PoolFrom w w) (continuation : ReactionContinuation F) :
    Triple (fun v => v = w) (rotateContinuation token continuation) (fun _ => Lost w token)
      fun _ _ => True := by
  rintro v rfl
  rw [run_rotateContinuation]
  rcases hrequire : v.requireContinuation token with error | found
  · trivial
  · dsimp only
    by_cases hlast : token.generation = maxRevision
    · rw [if_pos hlast]
      trivial
    · rw [if_neg hlast]
      refine ⟨⟨found, hrequire⟩,
        h.rotate (requireContinuation_eq_ok.1 hrequire) hlast continuation, ?_⟩
      refine requireContinuation_setContinuation hrequire _ (.inl fun heq => ?_)
      have hgrown := toNat_succ_generation hlast
      have hsame : (token.generation + 1).toNat = token.generation.toNat := congrArg UInt32.toNat heq
      omega

/-- A token whose continuation was invalidated is revoked. -/
theorem revoked_invalidateContinuations (h : PoolFrom w w) {p : ReactionContinuation F → Bool}
    (haccepted : w.requireContinuation token = .ok continuation) (hp : p continuation = true) :
    Revoked (D := D) (w.invalidateContinuations p) token := by
  refine revoked_of_lost haccepted (h.invalidate p) ?_
  rw [requireContinuation_eq_ok] at haccepted
  rw [Ne, requireContinuation_eq_ok]
  unfold SlotPool.Holds at haccepted ⊢
  rw [pool_slots, Option.map_eq_some_iff] at haccepted
  obtain ⟨⟨generation, found⟩, hentry, hpair⟩ := haccepted
  obtain ⟨-, rfl⟩ := Prod.mk.inj hpair
  rw [pool_slots, continuations_invalidateContinuations, List.getElem?_map, hentry]
  simp [hp]

omit [FloatFormat D] [FloatCast F D] in
/-- A sequence that resumes under a token uses the token up. -/
theorem lost_resumeReactionInner (h : PoolFrom w w) (reactionResult eventLimit : UInt32)
    (clock : Nat → F) :
    Triple (fun v => v = w) (resumeReactionInner token reactionResult eventLimit clock)
      (fun _ => Lost w token) fun _ _ => True := by
  have hfinish : ∀ handle (sequence : ReactionSequence F) events {α : Type} (a : α),
      Triple (Lost w token) (do
        writeSequence handle sequence
        modify fun w => w.pushEvents (sequence.events ++ events)
        pure a) (fun _ => Lost w token) fun _ _ => True := by
    intro handle sequence events α a
    refine triple_of_keeps (keeps_bind ?_ fun _ => keeps_bind (keeps_modify ?_) fun _ => keeps_pure _)
      fun _ _ _ => trivial
    · refine keeps_writeSequence (RequestClosed.toWriteClosed ?_) _ _
      exact SameContinuations.requestClosed fun _ _ hsame h => h.same hsame
    · exact fun _ h => h.same ⟨rfl, rfl, rfl⟩
  have hstart : ∀ {P : DogmosWorld F → Prop} {α : Type} {m : WorldM F α}, (∀ v, P v → v = w) →
      Triple (fun v => v = w) m (fun _ => Lost w token) (fun _ _ => True) →
      Triple P m (fun _ => Lost w token) fun _ _ => True :=
    fun hP hm => triple_mono hm hP (fun _ _ h => h) fun _ _ h => h
  unfold resumeReactionInner
  refine triple_ite (fun _ => triple_throw fun _ _ => trivial) fun _ => ?_
  refine triple_check_bind (fun continuation => ?_) fun _ _ _ _ => trivial
  refine triple_ite (fun _ => ?_) fun _ => ?_
  · refine triple_bind (hstart (fun _ hv => hv.1) (lost_completeContinuation h)) fun _ => ?_
    exact triple_pure fun _ hv => hv
  · refine triple_check_bind (fun sequence => ?_) fun _ _ _ _ => trivial
    refine triple_check_bind (fun _ => ?_) fun _ _ _ _ => trivial
    split
    · refine triple_bind (hstart (fun _ hv => hv.1.1.1) (lost_completeContinuation h)) fun _ => ?_
      exact triple_bind (triple_pure fun _ hv => hv) fun _ => hfinish _ _ _ _
    · refine triple_bind (hstart (fun _ hv => hv.1.1.1) (lost_rotateContinuation h _)) fun _ => ?_
      exact triple_bind (triple_pure fun _ hv => hv) fun _ => hfinish _ _ _ _

end Tokens

/-! ## The free list -/

/-- The slot that would be taken next has a generation that cannot grow. -/
def NextExhausted (w : DogmosWorld F) : Prop :=
  ∃ slot ∈ w.freeContinuations.getLast?, ∃ entry ∈ w.continuations[slot.toNat]?,
    entry.generation = maxRevision

/-- Every vacant slot is on the free list, after steps of the pool. -/
structure FullFrom (origin w : DogmosWorld F) : Prop where
  pool : PoolFrom origin w
  full : w.pool.Full

section Full

variable {origin w w' : DogmosWorld F}

theorem FullFrom.same (h : FullFrom origin w) (hsame : SameContinuations w w') :
    FullFrom origin w' := by
  refine ⟨h.pool.same hsame, ?_⟩
  rw [hsame.pool]
  exact h.full

theorem FullFrom.settle (h : FullFrom origin w) (hstep : SettleStep w w') : FullFrom origin w' :=
  ⟨h.pool.settle hstep, full_settle h.pool.length h.full hstep⟩

theorem FullFrom.allocate (h : FullFrom origin w) (hnext : ¬w.NextExhausted)
    (continuation : ReactionContinuation F) :
    FullFrom origin ((allocateContinuation continuation).final w) := by
  refine ⟨h.pool.allocate continuation, full_allocate h.pool h.full ?_ continuation⟩
  rintro ⟨slot, hlast, hslot⟩
  refine hnext ?_
  have hfree : (w.freeContinuations.map UInt32.toNat).getLast? = some slot := hlast
  rw [List.getLast?_map, Option.map_eq_some_iff] at hfree
  obtain ⟨free, hfree, rfl⟩ := hfree
  rw [pool_slots, Option.map_eq_some_iff] at hslot
  obtain ⟨entry, hentry, hpair⟩ := hslot
  exact ⟨free, hfree, entry, hentry, UInt32.toNat_inj.1 (Prod.mk.inj hpair).1⟩

theorem batchClosed_fullFrom [FloatFormat F] (origin : DogmosWorld F) :
    BatchClosed (FullFrom origin) :=
  SameContinuations.batchClosed (fun _ _ hsame h => h.same hsame) fun _ _ hstep h => h.settle hstep

variable [FloatFormat F]

/-- A sequence stops at a reaction of the client. -/
def SequencePauses (w : DogmosWorld F) (mixture : MixtureHandle) (target : GameplayHandle)
    (threshold : Option F) (eventLimit : UInt32) (clock : Nat → F) : Prop :=
  ∃ sequence : ReactionSequence F,
    validateReactionProfileThreshold threshold = .ok () ∧
      w.evaluateReactionSequence target mixture 0 0 threshold clock = .ok sequence ∧
      w.requireEventCapacity sequence.eventCount (min w.maxEvents eventLimit).toNat = .ok () ∧
      sequence.pending.isSome

/-- A request that runs a sequence keeps the free list full, unless the sequence stops while the
next slot is exhausted. -/
theorem FullFrom.reactMixture (h : FullFrom origin w) {mixture : MixtureHandle}
    {target : GameplayHandle} {threshold : Option F} {eventLimit : UInt32} {clock : Nat → F}
    (hnext : w.SequencePauses mixture target threshold eventLimit clock → ¬w.NextExhausted) :
    FullFrom origin ((reactMixture mixture target threshold eventLimit clock).final w) := by
  have hpush : ∀ (sequence : ReactionSequence F) events, Triple (FullFrom origin) (do
      writeSequence mixture sequence
      modify fun w => w.pushEvents (sequence.events ++ events)
      pure (⟨sequence.flags, sequence.workItems, sequence.pending.isSome⟩ : ReactionProgress))
      (fun _ => FullFrom origin) fun _ => FullFrom origin := by
    intro sequence events
    refine triple_of_keeps (keeps_bind ?_ fun _ => keeps_bind (keeps_modify ?_) fun _ => keeps_pure _)
      fun _ _ hw => hw
    · exact keeps_writeSequence (batchClosed_fullFrom origin).toWriteClosed _ _
    · exact fun w hw => (batchClosed_fullFrom origin).events w _ hw
  have htriple : Triple (fun v => v = w)
      (DogmosWorld.reactMixture mixture target threshold eventLimit clock)
      (fun _ => FullFrom origin) fun _ => FullFrom origin := by
    unfold DogmosWorld.reactMixture
    refine triple_check_bind (fun _ => ?_) fun _ _ hv _ => hv ▸ h
    refine triple_check_bind (fun sequence => ?_) fun _ _ hv _ => hv.1 ▸ h
    refine triple_check_bind (fun _ => ?_) fun _ _ hv _ => hv.1.1 ▸ h
    split
    · refine triple_bind (Q := fun _ => FullFrom origin) ?_ fun _ => hpush _ _
      exact triple_pure fun v hv => hv.1.1.1 ▸ h
    · next pending hpending =>
      refine triple_bind (Q := fun _ => FullFrom origin) ?_ fun token =>
        triple_bind (triple_pure fun _ hv => hv) fun _ => hpush _ _
      rintro v ⟨⟨⟨rfl, hthreshold⟩, hsequence⟩, hcapacity⟩
      have hallocated := h.allocate (hnext ⟨sequence, hthreshold, hsequence, hcapacity, by
        rw [hpending]; rfl⟩) { turf := none, mixture, target
                               nextReactionIndex := pending.nextReactionIndex
                               reactionProfileThresholdMs := threshold }
      unfold final at hallocated
      split
      · next heq => rwa [heq] at hallocated
      · next heq => rwa [heq] at hallocated
  exact htriple.final rfl

omit [FloatFormat F] in
/-- The end of a commit keeps the free list full, published or not. -/
theorem FullFrom.finishStageReactions (hv : FullFrom origin v) (state : StageReactionState F)
    (continuation : Option (ReactionContinuationToken × WorldEvent F)) :
    FullFrom origin (run (do
      let w ← get
      if !w.publications.undecided state.publication then
        match continuation with
        | some (token, _) => completeContinuation token
        | none => pure ()
        throw (.stageConflict
          (.activeStageMutation "publish reactions after a concurrent write"))
      modify fun w =>
        { w with
          publications := w.publications.publish state.publication
          events := w.events ++ state.stagedEvents ++
            (continuation.map Prod.snd).toList }.cacheReactions { state with pending := none }
      return (UInt32.ofNatClamp state.targets.length,
        UInt32.ofNatClamp (reactionEventCount state)) : WorldM F (UInt32 × UInt32)) v).2 := by
  rw [run_bind, run_get]
  dsimp only
  by_cases hfree : v.publications.undecided state.publication
  · simp only [hfree, Bool.not_true, Bool.false_eq_true, if_false]
    exact hv.same ⟨rfl, rfl, rfl⟩
  · simp only [hfree, Bool.not_false, if_true]
    cases continuation with
    | none => exact hv
    | some entry =>
      have hcompleted := hv.settle (.complete v entry.1)
      unfold final at hcompleted
      dsimp only
      rw [run_bind]
      rcases hrun : run (completeContinuation entry.1) v with ⟨error | _, v'⟩
      · rw [hrun] at hcompleted
        exact hcompleted
      · rw [hrun] at hcompleted
        exact hcompleted

/-- The commit of a reaction stage keeps the free list full, unless it takes a slot while the
next one is exhausted. -/
theorem FullFrom.commitStageReactions (h : FullFrom origin w) (eventCapacity : Nat)
    (hnext : ∀ state, w.stageReactions = some state → state.pending.isSome →
      w.requireEventCapacity (reactionEventCount state) eventCapacity = .ok () → ¬w.NextExhausted) :
    FullFrom origin ((commitStageReactions eventCapacity).final w) := by
  have hclosed := batchClosed_fullFrom origin
  unfold DogmosWorld.commitStageReactions reactionState final
  rw [run_bind, run_check]
  rcases hstate : w.stageReactions with _ | state
  · exact h
  · dsimp only [pure, Except.pure]
    rw [run_bind, run_check]
    rcases hcapacity : w.requireEventCapacity (reactionEventCount state) eventCapacity with error | _
    · exact h
    · dsimp only
      rw [run_bind, run_modify]
      dsimp only
      have hdropped : FullFrom origin { w with stageReactions := none } := h.same ⟨rfl, rfl, rfl⟩
      rw [run_bind]
      unfold allocateStageContinuation
      rcases hpending : state.pending with _ | ⟨turf, mixture, pending⟩
      · exact hdropped.finishStageReactions state none
      · dsimp only
        have hallocated := hdropped.allocate (hnext state hstate (by rw [hpending]; rfl) hcapacity)
          { turf := some turf, mixture, target := .ofTurf turf
            nextReactionIndex := pending.nextReactionIndex, reactionProfileThresholdMs := none }
        unfold final at hallocated
        rw [run_bind]
        rcases hrun : run (allocateContinuation (F := F)
          { turf := some turf, mixture, target := .ofTurf turf
            nextReactionIndex := pending.nextReactionIndex
            reactionProfileThresholdMs := none }) { w with stageReactions := none } with
          ⟨error | token, v⟩
        · rw [hrun] at hallocated
          exact hallocated
        · rw [hrun] at hallocated
          exact hallocated.finishStageReactions state (some (token, _))

variable [FloatFormat D] [FloatCast F D]

/-- A chunk of a reaction stage commits a sequence that stopped. -/
def ChunkPauses (w : DogmosWorld F) (request : StageChunkRequest D) (eventLimit : UInt32)
    (shouldCancel : Nat → Bool) : Prop :=
  request.stage = .react ∧ ∃ chunk state,
    run (reachCommit request shouldCancel) { world := w, workItems := 0, checks := 0 } =
        (.ok none, chunk) ∧
      chunk.world.stageReactions = some state ∧ state.pending.isSome ∧
      chunk.world.requireEventCapacity (reactionEventCount state)
        (min w.maxEvents eventLimit).toNat = .ok ()

theorem FullFrom.processStageChunk (h : FullFrom origin w) {request : StageChunkRequest D}
    {eventLimit : UInt32} {shouldCancel : Nat → Bool}
    (hnext : w.ChunkPauses request eventLimit shouldCancel → ¬w.NextExhausted) :
    FullFrom origin ((processStageChunk request eventLimit shouldCancel).final w) := by
  have hunit : ∀ v v' : DogmosWorld F, UnitStep v v' → SameContinuations w v →
      SameContinuations w v' := fun v v' hstep hv => hv.trans (.unitStep hstep)
  have hclosed := SameContinuations.commitClosed w
  by_cases hstage : request.stage = .react
  · rw [final_processStageChunk_react hstage]
    have hreach := keeps_reachCommit hunit request (hclosed.keeps_openStage request) shouldCancel
      { world := w, workItems := 0, checks := 0 } (.refl w)
    rcases hrun : run (reachCommit request shouldCancel) { world := w, workItems := 0, checks := 0 }
      with ⟨error | (_ | result), chunk⟩
    · rw [hrun] at hreach
      exact h.same (hreach.trans ((SameContinuations.commitClosed _).abortStage (.refl _)))
    · rw [hrun] at hreach
      have hsame : SameContinuations w chunk.world := hreach
      have hcommit := (h.same hsame).commitStageReactions
        (min w.maxEvents eventLimit).toNat fun state hstate hpending hcapacity =>
          show ¬chunk.world.NextExhausted by
            unfold NextExhausted
            rw [hsame.free, hsame.continuations]
            exact hnext ⟨hstage, chunk, state, hrun, hstate, hpending, hcapacity⟩
      unfold final at hcommit
      unfold commitTargets
      dsimp only
      rw [run_bind, run_get]
      dsimp only
      rw [run_bind, run_onWorld]
      rcases hcommitted : run (DogmosWorld.commitStageReactions (F := F)
        (min w.maxEvents eventLimit).toNat) chunk.world with ⟨error | counts, v⟩
      · rw [hcommitted] at hcommit
        exact hcommit.same ((SameContinuations.commitClosed _).abortStage (.refl _))
      · rw [hcommitted] at hcommit
        dsimp only
        rw [run_bind, run_onWorld]
        exact hcommit.same ⟨rfl, rfl, rfl⟩
    · rw [hrun] at hreach
      exact h.same hreach
  · exact h.same (hclosed.keeps_processStageChunk hunit hstage eventLimit shouldCancel w (.refl w))

/-- The operation stops a sequence that did not wait before. -/
def Pauses (w : DogmosWorld F) : Op F D → Prop
  | .reactMixture mixture target threshold eventLimit clock =>
    w.SequencePauses mixture target threshold eventLimit clock
  | .processStageChunk request eventLimit shouldCancel =>
    w.ChunkPauses request eventLimit shouldCancel
  | _ => False

/-- **Every vacant slot stays on the free list**, unless a sequence stops while the next slot is
exhausted. -/
theorem FullFrom.step (h : FullFrom origin w) {op : Op F D} (hnext : w.Pauses op → ¬w.NextExhausted) :
    FullFrom origin (step w op) := by
  by_cases hop : op.IsBatch
  · exact keeps_exec_of_isBatch (batchClosed_fullFrom origin).toRecordsClosed hop w h
  · by_cases hrun : op.IsRun
    · cases hrun with
      | reactMixture mixture target threshold eventLimit clock =>
        unfold DogmosWorld.step exec
        rw [final_discard]
        exact h.reactMixture hnext
      | processStageChunk request eventLimit shouldCancel =>
        unfold DogmosWorld.step exec
        rw [final_discard]
        exact h.processStageChunk hnext
    · have hclosed := batchClosed_fullFrom origin
      exact keeps_exec_of_resumeClosed hclosed.toResumeClosed hop
        (keeps_exec_of_isFrontier hclosed.frontier) (fun hop => absurd hop hrun) w h

end Full

/-! ## The contract of continuations -/

section Contract

variable [FloatFormat F] [FloatFormat D] [FloatCast F D] {w : DogmosWorld F}

/-- What holds of the continuations at every point of a run: the capacity is respected, the free
list is the list of the vacant slots, and a token that was used up is never accepted again. -/
structure ContinuationContract (w : DogmosWorld F) : Prop where
  bounded : (w.continuations.countP fun slot => slot.continuation.isSome) ≤ w.maxContinuations.toNat
  nodup : w.freeContinuations.Nodup
  vacant : ∀ slot : ℕ, (∃ generation, w.continuations[slot]? = some ⟨generation, none⟩) ↔
    slot ∈ w.freeContinuations.map UInt32.toNat
  available : ∀ continuation : ReactionContinuation F,
    (w.continuations.countP fun slot => slot.continuation.isSome) < w.maxContinuations.toNat →
      ¬w.NextExhausted → ∃ token, (allocateContinuation continuation).result w = .ok token
  completed : ∀ token, (completeContinuation token).result w = .ok () →
    Revoked (D := D) ((completeContinuation token).final w) token
  rotated : ∀ token continuation rotated,
    (rotateContinuation token continuation).result w = .ok rotated →
      Revoked (D := D) ((rotateContinuation token continuation).final w) token
  resumed : ∀ token reactionResult eventLimit (clock : Nat → F) progress,
    (resumeReactionInner token reactionResult eventLimit clock).result w = .ok progress →
      Revoked (D := D) ((resumeReactionInner token reactionResult eventLimit clock).final w) token
  invalidated : ∀ token continuation (p : ReactionContinuation F → Bool),
    w.requireContinuation token = .ok continuation → p continuation = true →
      Revoked (D := D) (w.invalidateContinuations p) token
  lasting : ∀ token continuation (ops : List (Op F D)),
    w.requireContinuation token = .ok continuation →
      (System.run step w ops).requireContinuation token = .ok continuation ∨
        Revoked (D := D) (System.run step w ops) token

omit [FloatFormat F] [FloatFormat D] [FloatCast F D] in
theorem FullFrom.vacant_iff (h : FullFrom w w) (slot : ℕ) :
    (∃ generation, w.continuations[slot]? = some ⟨generation, none⟩) ↔
      slot ∈ w.freeContinuations.map UInt32.toNat := by
  constructor
  · rintro ⟨generation, hentry⟩
    refine h.full slot generation.toNat ?_
    rw [pool_slots, hentry]
    rfl
  · intro hfree
    obtain ⟨generation, hslot⟩ := h.pool.sound.vacant slot hfree
    rw [pool_slots, Option.map_eq_some_iff] at hslot
    obtain ⟨⟨current, found⟩, hentry, hpair⟩ := hslot
    obtain ⟨-, rfl⟩ := Prod.mk.inj hpair
    exact ⟨current, hentry⟩

omit [FloatFormat F] [FloatFormat D] [FloatCast F D] in
/-- While the capacity is not used up, allocation succeeds. -/
theorem FullFrom.available (h : FullFrom w w) (continuation : ReactionContinuation F)
    (hlive : (w.continuations.countP fun slot => slot.continuation.isSome) < w.maxContinuations.toNat)
    (hnext : ¬w.NextExhausted) :
    ∃ token, (allocateContinuation continuation).result w = .ok token := by
  unfold result
  rcases hfree : w.freeContinuations.getLast? with _ | slot
  · rw [run_allocateContinuation_full w continuation hfree]
    have hnil := List.getLast?_eq_none_iff.1 hfree
    -- every slot is occupied, so there are fewer slots than the capacity
    have hall : (w.continuations.countP fun slot => slot.continuation.isSome) =
        w.continuations.length := by
      rw [List.countP_eq_length]
      intro entry hentry
      obtain ⟨slot, hslot⟩ := List.mem_iff_getElem?.1 hentry
      rcases hfound : entry.continuation with _ | continuation
      · have hmem := (h.vacant_iff slot).1 ⟨entry.generation, by rw [hslot, ← hfound]⟩
        rw [hnil] at hmem
        cases hmem
      · rfl
    have hmax := w.maxContinuations.toNat_lt
    have hpending : ¬w.maxContinuations ≤ w.pendingReactionContinuations := by
      rw [UInt32.not_le, UInt32.lt_iff_toNat_lt]
      unfold pendingReactionContinuations UInt32.ofNatClamp
      split
      · rw [UInt32.toNat_ofNatLT]
        exact hlive
      · next hsize =>
        have hbound : UInt32.size = 2 ^ 32 := rfl
        omega
    rw [if_neg]
    · exact ⟨_, rfl⟩
    · rw [not_or]
      exact ⟨hpending, by omega⟩
  · rw [run_allocateContinuation_free w continuation hfree]
    obtain ⟨generation, hentry⟩ := (h.vacant_iff slot.toNat).2
      (List.mem_map_of_mem (List.mem_of_getLast? hfree))
    rw [hentry]
    dsimp only [Option.getD_some]
    rw [if_neg]
    · exact ⟨_, rfl⟩
    · exact fun hlast => hnext ⟨slot, hfree, _, hentry, hlast⟩

/-- The contract, from the steps of the pool. -/
theorem FullFrom.contract (h : FullFrom w w) : ContinuationContract (D := D) w where
  bounded := by
    have hbounded := h.pool.sound.bounded
    rw [live_pool] at hbounded
    omega
  nodup := h.pool.sound.nodup.of_map _
  vacant := h.vacant_iff
  available := h.available
  completed _ hok := ((lost_completeContinuation h.pool).of_ok rfl hok).revoked
  rotated _ continuation _ hok :=
    ((lost_rotateContinuation h.pool continuation).of_ok rfl hok).revoked
  resumed _ reactionResult eventLimit clock _ hok :=
    ((lost_resumeReactionInner h.pool reactionResult eventLimit clock).of_ok rfl hok).revoked
  invalidated _ _ _ haccepted hp := revoked_invalidateContinuations h.pool haccepted hp
  lasting _ _ ops haccepted := accepted_or_revoked h.pool haccepted ops

/-- **Continuations are single use and none of their slots is lost** in every run in which no
sequence pauses while the next free slot is exhausted. -/
theorem continuations_contract
    (h : ReachableWhere (D := D) (fun w op => w.Pauses op → ¬w.NextExhausted) w) :
    ContinuationContract (D := D) w := by
  refine FullFrom.contract (reachableWhere_induct (I := fun w => FullFrom w w) ?_ ?_ h)
  · rintro w ⟨_, _, _, _, _, rfl⟩
    exact ⟨poolFrom_self (Nat.zero_le _) SlotPool.sound_empty, SlotPool.full_empty⟩
  · intro w op _ hnext hw
    have hstep := hw.step hnext
    exact ⟨hstep.pool.self, hstep.full⟩

end Contract

/-! ## A slot that is lost -/

section Lost

/-- A gas. -/
def oxygen : GasMetadata F32 :=
  { id := ⟨0⟩, key := "o2", name := "Oxygen", flags := 0, specificHeat := 20.0, fusionPower := 0.0
    molesVisible := none, enthalpy := 0.0, fireRadiationReleased := 0.0, fireRole := .none
    fireProducts := none }

/-- A reaction the client runs, whatever is in the mixture. -/
def dmOnly : ReactionMetadata F32 :=
  { id := ⟨0⟩, key := "dm_only", priority := 1.0, minimumTemperature := none
    maximumTemperature := none, minimumEnergy := none, minimumFireReagents := none
    gasRequirements := [], execution := .dm }

/-- A world with room for one continuation, where every sequence stops for the client. -/
def pausingWorld : DogmosWorld F32 :=
  System.run (step (D := F64)) (newWithCapacities 0 0 100000 1 1)
    [.installGases [oxygen], .installReactions [dmOnly], .applyLifecycle [⟨.register, ⟨0, 1⟩⟩]]

/-- The request whose sequence stops. -/
abbrev pausingReact : Op F32 F64 := .reactMixture ⟨0, 1⟩ ⟨0, 1⟩ none 1 unprofiled

/-- The world in which the only slot was used as often as its generation says. -/
def usedWorld (generation : UInt32) : DogmosWorld F32 :=
  { pausingWorld with continuations := [⟨generation, none⟩], freeContinuations := [0] }

/-- The sequence of the world, whatever its continuations are. -/
theorem pausingWorld_sequence : ∃ sequence : ReactionSequence F32,
    ∃ pending, sequence.pending = some pending ∧ sequence.events = [] ∧ sequence.nativeUpdates = 0 ∧
      ∀ continuations freeContinuations events,
        DogmosWorld.evaluateReactionSequence
          { pausingWorld with continuations, freeContinuations, events } ⟨0, 1⟩ ⟨0, 1⟩ 0 0 none
          unprofiled = .ok sequence := by
  have hsequence : ∃ sequence, pausingWorld.evaluateReactionSequence ⟨0, 1⟩ ⟨0, 1⟩ 0 0 none
      unprofiled = .ok sequence ∧ sequence.pending.isSome ∧ sequence.events.isEmpty ∧
        sequence.nativeUpdates = 0 := by
    have hcheck : (match pausingWorld.evaluateReactionSequence ⟨0, 1⟩ ⟨0, 1⟩ 0 0 none unprofiled with
        | .ok sequence => sequence.pending.isSome && sequence.events.isEmpty &&
          decide (sequence.nativeUpdates = 0)
        | .error _ => false) = true := by decide +kernel
    rcases hrun : pausingWorld.evaluateReactionSequence ⟨0, 1⟩ ⟨0, 1⟩ 0 0 none unprofiled with
      error | sequence
    · rw [hrun] at hcheck
      cases hcheck
    · rw [hrun] at hcheck
      simp only [Bool.and_eq_true, decide_eq_true_eq] at hcheck
      exact ⟨sequence, rfl, hcheck.1.1, hcheck.1.2, hcheck.2⟩
  obtain ⟨sequence, hrun, hpending, hevents, hupdates⟩ := hsequence
  obtain ⟨pending, hpending⟩ := Option.isSome_iff_exists.1 hpending
  exact ⟨sequence, pending, hpending, List.isEmpty_iff.1 hevents, hupdates, fun _ _ _ => hrun⟩

/-- The state a request that pauses leaves is the one its allocation leaves, and an event. -/
theorem step_pausingReact {w : DogmosWorld F32} {sequence : ReactionSequence F32}
    {pending : PendingDmReaction}
    (hsequence : w.evaluateReactionSequence ⟨0, 1⟩ ⟨0, 1⟩ 0 0 none unprofiled = .ok sequence)
    (hpending : sequence.pending = some pending) (hevents : sequence.events = [])
    (hupdates : sequence.nativeUpdates = 0) (hempty : w.events = []) (hroom : w.maxEvents = 1) :
    ∃ continuation : ReactionContinuation F32,
      step w pausingReact =
        match run (allocateContinuation continuation) w with
        | (.ok token, v) => v.pushEvents [dmReactionEvent continuation pending token]
        | (.error _, v) => v := by
  have hcapacity : w.requireEventCapacity sequence.eventCount (min w.maxEvents 1).toNat =
      .ok () := by
    unfold requireEventCapacity ReactionSequence.eventCount
    rw [hempty, hevents, hpending, hroom]
    rfl
  refine ⟨{ turf := none, mixture := ⟨0, 1⟩, target := ⟨0, 1⟩
            nextReactionIndex := pending.nextReactionIndex
            reactionProfileThresholdMs := none }, ?_⟩
  have hthreshold : validateReactionProfileThreshold (none : Option F32) = .ok () := rfl
  unfold step exec
  rw [final_discard]
  unfold reactMixture final
  rw [run_bind, run_check, hthreshold]
  dsimp only
  rw [run_bind, run_check, hsequence]
  dsimp only
  rw [run_bind, run_check, hcapacity]
  dsimp only
  simp only [hpending]
  rw [run_bind]
  rcases run (allocateContinuation _) w with ⟨error | token, v⟩
  · rfl
  · dsimp only [writeSequence]
    rw [hupdates, hevents]
    rfl

/-- The world while the sequence waits. -/
def waitingWorld (generation : UInt32) (continuation : ReactionContinuation F32)
    (event : WorldEvent F32) : DogmosWorld F32 :=
  { pausingWorld with
    continuations := [⟨generation, some continuation⟩], freeContinuations := [], events := [event] }

/-- The sequence is cancelled and the event is taken. -/
theorem reachable_cancelled {generation : UInt32} {continuation : ReactionContinuation F32}
    {event : WorldEvent F32}
    (h : Reachable (D := F64) (waitingWorld generation continuation event)) :
    Reachable (D := F64) (usedWorld generation) := by
  have hrequire : (waitingWorld generation continuation event).requireContinuation
      ⟨0, generation⟩ = .ok continuation := by
    rw [requireContinuation_eq_ok]
    rfl
  have hcancel : step (waitingWorld generation continuation event)
      (.cancelReaction ⟨0, generation⟩ : Op F32 F64) =
        (waitingWorld generation continuation event).freeContinuation 0 generation := by
    show (run (completeContinuation _) _).2 = _
    rw [run_completeContinuation, hrequire]
    rfl
  have hcancelled := System.ReachableWhere.next (.cancelReaction ⟨0, generation⟩ : Op F32 F64) h
    trivial
  rw [hcancel] at hcancelled
  exact System.ReachableWhere.next (.drainEvents 1 : Op F32 F64) hcancelled trivial

theorem reachable_usedWorld_one : Reachable (D := F64) (usedWorld 1) := by
  obtain ⟨sequence, pending, hpending, hevents, hupdates, hsequence⟩ := pausingWorld_sequence
  obtain ⟨continuation, hstep⟩ := step_pausingReact (w := pausingWorld)
    (hsequence pausingWorld.continuations pausingWorld.freeContinuations pausingWorld.events)
    hpending hevents hupdates rfl rfl
  have hreachable : Reachable (D := F64) pausingWorld :=
    System.reachable_run ⟨0, 0, 100000, 1, 1, rfl⟩ _
  have hpaused := System.ReachableWhere.next pausingReact hreachable trivial
  rw [hstep, run_allocateContinuation_full _ continuation rfl, if_neg (by decide)] at hpaused
  exact reachable_cancelled hpaused

/-- One use of the slot. -/
theorem reachable_usedWorld_next {generation : UInt32} (hgeneration : generation ≠ maxRevision)
    (h : Reachable (D := F64) (usedWorld generation)) :
    Reachable (D := F64) (usedWorld (generation + 1)) := by
  obtain ⟨sequence, pending, hpending, hevents, hupdates, hsequence⟩ := pausingWorld_sequence
  obtain ⟨continuation, hstep⟩ := step_pausingReact (w := usedWorld generation)
    (hsequence _ _ pausingWorld.events) hpending hevents hupdates rfl rfl
  rw [run_allocateContinuation_free _ continuation (show _ = some 0 from rfl)] at hstep
  have hcheck : ¬((usedWorld generation).continuations[(0 : UInt32).toNat]?.getD
      ⟨0, none⟩).generation = maxRevision := hgeneration
  rw [if_neg hcheck] at hstep
  have hpaused := System.ReachableWhere.next pausingReact h trivial
  rw [hstep] at hpaused
  exact reachable_cancelled hpaused

/-- The slot can be used up to the last generation. -/
theorem reachable_usedWorld (n : ℕ) (hn : n + 1 < 2 ^ 32) :
    Reachable (D := F64) (usedWorld (UInt32.ofNat (n + 1))) := by
  induction n with
  | zero => exact reachable_usedWorld_one
  | succ n ih =>
    have hsmall : (UInt32.ofNat (n + 1)).toNat = n + 1 :=
      UInt32.toNat_ofNat_of_lt' (by show n + 1 < 2 ^ 32; omega)
    have hne : UInt32.ofNat (n + 1) ≠ maxRevision := by
      intro heq
      have hmax : maxRevision.toNat = 2 ^ 32 - 1 := rfl
      have hnat := congrArg UInt32.toNat heq
      omega
    have hgrown : UInt32.ofNat (n + 1) + 1 = UInt32.ofNat (n + 1 + 1) := by
      apply UInt32.toNat_inj.1
      rw [toNat_succ_generation hne, hsmall, UInt32.toNat_ofNat_of_lt' hn]
    rw [← hgrown]
    exact reachable_usedWorld_next hne (ih (by omega))

/-- The contract in a world where a sequence waits. -/
theorem continuations_contract_waiting :
    ((step pausingWorld pausingReact).continuations.countP fun slot => slot.continuation.isSome) = 1 ∧
      ContinuationContract (D := F64) (step pausingWorld pausingReact) := by
  have hnext : ∀ w : DogmosWorld F32, w.freeContinuations = [] → ∀ op : Op F32 F64,
      w.Pauses op → ¬w.NextExhausted := by
    rintro w hfree op - ⟨slot, hslot, -⟩
    rw [hfree] at hslot
    cases hslot
  refine ⟨by decide +kernel, continuations_contract ?_⟩
  have hstart : ReachableWhere (D := F64) (fun w op => w.Pauses op → ¬w.NextExhausted)
      (newWithCapacities (F := F32) 0 0 100000 1 1) := .start ⟨0, 0, 100000, 1, 1, rfl⟩
  have hgases := hstart.next (.installGases [oxygen]) (hnext _ rfl _)
  have hreactions := hgases.next (.installReactions [dmOnly]) (hnext _ rfl _)
  have hmixture := hreactions.next (.applyLifecycle [⟨.register, ⟨0, 1⟩⟩]) (hnext _ rfl _)
  exact hmixture.next pausingReact (hnext _ rfl _)

/-- **A slot is lost**: the allocation that finds the generation exhausted fails although nothing
waits, and leaves a vacant slot that is not on the free list. -/
theorem lost_continuation_slot : ∃ w : DogmosWorld F32, Reachable (D := F64) w ∧
    (w.continuations.countP fun slot => slot.continuation.isSome) < w.maxContinuations.toNat ∧
      w.continuations[0]? = some ⟨maxRevision, none⟩ ∧ w.freeContinuations = [] := by
  have hmax : UInt32.ofNat (2 ^ 32 - 2 + 1) = maxRevision := rfl
  have hused : Reachable (D := F64) (usedWorld maxRevision) := by
    rw [← hmax]
    exact reachable_usedWorld (2 ^ 32 - 2) (by omega)
  obtain ⟨sequence, pending, hpending, hevents, hupdates, hsequence⟩ := pausingWorld_sequence
  obtain ⟨continuation, hstep⟩ := step_pausingReact (w := usedWorld maxRevision)
    (hsequence _ _ pausingWorld.events) hpending hevents hupdates rfl rfl
  have hcheck : ((usedWorld maxRevision).continuations[(0 : UInt32).toNat]?.getD
      ⟨0, none⟩).generation = maxRevision := rfl
  rw [run_allocateContinuation_free _ continuation (show _ = some 0 from rfl), if_pos hcheck] at hstep
  have hlost := System.ReachableWhere.next pausingReact hused trivial
  rw [hstep] at hlost
  exact ⟨_, hlost, Nat.zero_lt_one, rfl, rfl⟩

end Lost

end DogmosWorld

end Dogmos
