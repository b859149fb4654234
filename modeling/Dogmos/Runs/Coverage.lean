import Dogmos.Runs.FrontierSize
import Dogmos.Runs.Overlap

/-!
# What a reaction stage covers

A reaction stage is driven by chunks, and other operations come between them
(`ReactRun`).  The sequences its chunks run are, in order, the first of the
stage's targets, and none but the last stops.  When the stage completes, either
all targets were run, or the last sequence stopped and its mixture waits for the
client (`react_stage_coverage`).  The stage does not run the targets behind a
sequence that stopped (`targets_left_behind`).
-/

namespace Dogmos

open Exec Chunk Worklist

variable {F D : Type}

namespace DogmosWorld

/-! ## Runs of a stage -/

section Runs

variable [FloatFormat F] [FloatFormat D] [FloatCast F D]

/-- A reaction stage from the world it starts in on, with the sequences its chunks ran: every chunk
leaves work behind, and once the stage runs other operations can come between chunks. -/
inductive ReactRun (w₀ : DogmosWorld F) : List (Evaluation F) → DogmosWorld F → Prop
  | start (h : w₀.stageCursor = none) : ReactRun w₀ [] w₀
  | chunk {evaluated w w'} (h : ReactRun w₀ evaluated w) (request : StageChunkRequest D)
      (eventLimit : UInt32) (shouldCancel : Nat → Bool) (hstage : request.stage = .react)
      (result : StageChunkResult)
      (hrun : run (processStageChunk request eventLimit shouldCancel) w = (.ok result, w'))
      (hpending : result.pending = true) :
      ReactRun w₀ (evaluated ++ evaluations request shouldCancel w) w'
  | other {evaluated w} (h : ReactRun w₀ evaluated w) (op : Op F D) (hop : ¬op.IsChunk)
      (hactive : w.stageCursor.isSome) : ReactRun w₀ evaluated (step w op)

end Runs

section Coverage

variable [FloatFormat F] [FloatFormat D] [FloatCast F D] {w₀ w w' : DogmosWorld F}
  {evaluated : List (Evaluation F)}

theorem step_eq_of_run {request : StageChunkRequest D} {eventLimit : UInt32}
    {shouldCancel : Nat → Bool} {result : Except WorldError StageChunkResult}
    (hrun : run (processStageChunk request eventLimit shouldCancel) w = (result, w')) :
    step w (.processStageChunk request eventLimit shouldCancel : Op F D) = w' := by
  unfold step exec
  rw [final_discard]
  unfold final
  rw [hrun]

/-! ## Chunks that return -/

omit [FloatFormat D] [FloatCast F D] in
/-- Without a sequence that stopped, none stopped. -/
theorem pauses_of_pendingOf (hrunning : ∀ e ∈ evaluated.dropLast, e.pauses = none)
    (hnone : pendingOf evaluated = none) {e : Evaluation F} (he : e ∈ evaluated) : e.pauses = none := by
  rcases List.eq_nil_or_concat evaluated with rfl | ⟨init, last, rfl⟩
  · cases he
  · rw [List.concat_eq_append] at hrunning hnone he
    unfold pendingOf at hnone
    rw [List.dropLast_concat] at hrunning
    rw [List.getLast?_concat, Option.bind_some, Option.map_eq_none_iff] at hnone
    rcases List.mem_append.1 he with he | he
    · exact hrunning e he
    · rw [List.mem_singleton.1 he]
      exact hnone

/-- A chunk that leaves work behind ran the next of the planned sequences, and none stopped. -/
theorem ReactionsInOrder.pendingChunk (h : w.ReactionsInOrder) (hagrees : w.Agrees)
    (hscratch : w.stageCursor.isSome → w.stageReactions.isSome) {request : StageChunkRequest D}
    (hstage : request.stage = .react) {eventLimit : UInt32} {shouldCancel : Nat → Bool}
    {result : StageChunkResult}
    (hrun : run (processStageChunk request eventLimit shouldCancel) w = (.ok result, w'))
    (hpending : result.pending = true) :
    Swept w (evaluations request shouldCancel w) w.plannedSequences w' ∧
      ∀ e ∈ evaluations request shouldCancel w, e.pauses = none := by
  obtain ⟨-, hreach⟩ := h.reachCommit hagrees hstage shouldCancel
  rw [run_processStageChunk_react hstage] at hrun
  rcases hcommit : run (DogmosWorld.reachCommit request shouldCancel)
    { world := w, workItems := 0, checks := 0 } with ⟨error | (_ | reached), chunk⟩
  · rw [hcommit] at hrun
    cases hrun
  · -- the chunk got to its commit, so it does not leave work behind
    rw [hcommit] at hrun
    dsimp only at hrun
    rw [run_commitTargets] at hrun
    rcases hcommitted : run (commitStageReactions (F := F) (min w.maxEvents eventLimit).toNat)
      chunk.world with ⟨error | counts, v⟩
    · rw [hcommitted] at hrun
      cases hrun
    · rw [hcommitted] at hrun
      cases hrun
      cases hpending
  · rw [hcommit] at hrun
    cases hrun
    rcases hreach _ _ hcommit with ⟨hidle, -⟩ | ⟨hswept, -, hnone⟩
    · have hsome := hscratch hidle.active
      rw [hidle.lost] at hsome
      cases hsome
    · exact ⟨hswept, fun e he => pauses_of_pendingOf hswept.running hnone he⟩

omit [FloatFormat F] [FloatFormat D] [FloatCast F D] in
/-- When nothing is left to prepare and to run and no sequence stopped, no sequence remains. -/
theorem remainingSequences_of_done {state : StageReactionState F}
    (hstate : w.stageReactions = some state) (hnone : state.pending = none)
    (hlength : w.frontier.committed.length < 2 ^ 32) (hprepared : w.remainingPreparation = 0)
    (htargets : w.remainingTargets = 0) : w.remainingSequences = [] := by
  have hcount : w.preparationLength.toNat = w.frontier.committed.length := by
    unfold preparationLength UInt32.ofNatClamp
    rw [dif_pos (show w.frontier.committed.length < UInt32.size from hlength)]
    rfl
  unfold remainingPreparation at hprepared
  unfold DogmosWorld.remainingTargets at htargets
  rw [hstate] at htargets
  dsimp only at htargets
  rw [hnone, if_neg (by simp)] at htargets
  unfold remainingSequences upcomingMixtures
  rw [hstate]
  dsimp only
  rw [List.drop_eq_nil_of_le (by omega), List.drop_eq_nil_of_le (by omega)]
  rfl

/-- What a stage leaves that completes: all its targets were run and none stopped, or the last
sequence stopped and its mixture waits. -/
structure Completed (targets : List MixtureHandle) (evaluated : List (Evaluation F))
    (w' : DogmosWorld F) : Prop where
  covered : evaluated.map Evaluation.mixture <+: targets
  running : ∀ e ∈ evaluated.dropLast, e.pauses = none
  outcome : targets = evaluated.map Evaluation.mixture ∧ (∀ e ∈ evaluated, e.pauses = none) ∨
    ∃ e pending continuation token, evaluated.getLast? = some e ∧ e.pauses = some pending ∧
      continuation.mixture = e.mixture ∧ w'.requireContinuation token = .ok continuation ∧
        dmReactionEvent continuation pending token ∈ w'.events

/-- A chunk that completes its stage. -/
theorem ReactionsInOrder.completedChunk (h : w.ReactionsInOrder) (hagrees : w.Agrees)
    (hpool : PoolFrom w w) (hlength : w.frontier.committed.length < 2 ^ 32)
    (hscratch : w.stageCursor.isSome → w.stageReactions.isSome) {request : StageChunkRequest D}
    (hstage : request.stage = .react) {eventLimit : UInt32} {shouldCancel : Nat → Bool}
    {result : StageChunkResult}
    (hrun : run (processStageChunk request eventLimit shouldCancel) w = (.ok result, w'))
    (hpending : result.pending = false) :
    Completed w.plannedSequences (evaluations request shouldCancel w) w' := by
  obtain ⟨-, hreach⟩ := h.reachCommit hagrees hstage shouldCancel
  have htidy := keeps_tidy_reachCommit hstage shouldCancel
    { world := w, workItems := 0, checks := 0 } h.tidy
  rw [run_processStageChunk_react hstage] at hrun
  rcases hcommit : run (DogmosWorld.reachCommit request shouldCancel)
    { world := w, workItems := 0, checks := 0 } with ⟨error | (_ | reached), chunk⟩
  · rw [hcommit] at hrun
    cases hrun
  · rw [hcommit] at hrun htidy
    have htidy : chunk.world.Tidy := htidy
    rcases hreach _ _ hcommit with ⟨hidle, -⟩ | ⟨hswept, hprepared, htargets⟩
    · have hsome := hscratch hidle.active
      rw [hidle.lost] at hsome
      cases hsome
    · obtain ⟨state, hstate, -, hstopped⟩ := hswept.scratch
      have hcommitted := triple_commitStageReactions hstate htidy (min w.maxEvents eventLimit).toNat
        chunk.world rfl
      dsimp only at hrun
      rw [run_commitTargets] at hrun
      rcases hresult : run (commitStageReactions (F := F) (min w.maxEvents eventLimit).toNat)
        chunk.world with ⟨error | counts, v⟩
      · rw [hresult] at hrun
        cases hrun
      · rw [hresult] at hrun hcommitted
        cases hrun
        refine ⟨⟨_, hswept.remaining.symm⟩, hswept.running, ?_⟩
        rcases hpaused : state.pending with _ | ⟨turf, mixture, pending⟩
        · have hdone := remainingSequences_of_done hstate hpaused
            (hswept.frame.committed ▸ hlength) hprepared htargets
          refine .inl ⟨by rw [hswept.remaining, hdone, List.append_nil], fun e he => ?_⟩
          exact pauses_of_pendingOf hswept.running (hstopped.symm.trans hpaused) he
        · obtain ⟨continuation, token, u, rfl, hallocated, hsame, hevent⟩ :=
            hcommitted.paused _ _ _ hpaused
          rw [hstopped] at hpaused
          obtain ⟨e, hlast, hepauses⟩ := Option.bind_eq_some_iff.1 hpaused
          obtain ⟨found, hfound, heq⟩ := Option.map_eq_some_iff.1 hepauses
          obtain ⟨-, hrest⟩ := Prod.mk.inj heq
          obtain ⟨hmixture, rfl⟩ := Prod.mk.inj hrest
          have hpool' : PoolFrom chunk.world chunk.world := (hpool.same hswept.same).self
          have haccepted := accepted_allocateContinuation hpool' hallocated
          refine .inr ⟨e, _, continuation, token, hlast, hfound, hmixture.symm, ?_, hevent⟩
          unfold requireContinuation at haccepted ⊢
          rw [hsame.continuations]
          exact haccepted
  · rw [hcommit] at hrun
    cases hrun
    rcases hreach _ _ hcommit with ⟨hidle, -⟩ | ⟨-, htrue, -⟩
    · have hsome := hscratch hidle.active
      rw [hidle.lost] at hsome
      cases hsome
    · rw [hpending] at htrue
      cases htrue

/-! ## Whole stages -/

/-- How far a stage has come: the sequences that were run and those that are planned are its
targets, and none stopped. -/
structure Progress (targets : List MixtureHandle) (evaluated : List (Evaluation F))
    (w : DogmosWorld F) : Prop where
  targets : targets = evaluated.map Evaluation.mixture ++ w.plannedSequences
  running : ∀ e ∈ evaluated, e.pauses = none
  scratch : w.stageCursor.isSome → w.stageReactions.isSome

/-- **Step**: a chunk that leaves work behind. -/
theorem Progress.chunk {targets : List MixtureHandle} (h : Progress targets evaluated w)
    (horder : w.ReactionsInOrder) (hagrees : w.Agrees) {request : StageChunkRequest D}
    (hstage : request.stage = .react) {eventLimit : UInt32} {shouldCancel : Nat → Bool}
    {result : StageChunkResult}
    (hrun : run (processStageChunk request eventLimit shouldCancel) w = (.ok result, w'))
    (hpending : result.pending = true) :
    Progress targets (evaluated ++ evaluations request shouldCancel w) w' := by
  obtain ⟨hswept, hrunning⟩ := horder.pendingChunk hagrees h.scratch hstage hrun hpending
  obtain ⟨state, hstate, -, -⟩ := hswept.scratch
  refine ⟨?_, fun e he => ?_, fun _ => by rw [hstate]; rfl⟩
  · have hplanned : w'.plannedSequences = w'.remainingSequences := if_pos hswept.cursor
    rw [hplanned, List.map_append, List.append_assoc, ← hswept.remaining]
    exact h.targets
  · rcases List.mem_append.1 he with he | he
    · exact h.running e he
    · exact hrunning e he

/-- **Step**: another operation between two chunks. -/
theorem Progress.other {targets : List MixtureHandle} (h : Progress targets evaluated w)
    (horder : w.ReactionsInOrder) (hagrees : w.Agrees) {op : Op F D} (hop : ¬op.IsChunk)
    (hactive : w.stageCursor.isSome) : Progress targets evaluated (step w op) := by
  have hsame := sameStage_step (w := w) hop
  refine ⟨?_, h.running, fun _ => ?_⟩
  · have hplanned : (step w op).plannedSequences = w.plannedSequences := by
      unfold plannedSequences
      rw [hsame.cursor, if_pos hactive, if_pos hactive, horder.remaining_step hagrees hop]
    rw [hplanned]
    exact h.targets
  · rw [hsame.reactions]
    exact h.scratch hactive

/-- **Run**: how far a stage has come. -/
theorem ReactRun.progress (h : ReactRun (D := D) w₀ evaluated w) (hreachable : Reachable (D := D) w₀) :
    Reachable (D := D) w ∧ Progress w₀.stageTargets evaluated w := by
  induction h with
  | start hidle =>
    refine ⟨hreachable, ?_, by simp, fun hactive => ?_⟩
    · unfold plannedSequences
      rw [hidle]
      rfl
    · rw [hidle] at hactive
      cases hactive
  | chunk _ request eventLimit shouldCancel hstage result hrun hpending ih =>
    obtain ⟨hw, hprogress⟩ := ih
    refine ⟨?_, hprogress.chunk (reactionsInOrder_of_reachable hw) (wired_of_reachable hw).agrees
      hstage hrun hpending⟩
    have hnext := System.ReachableWhere.next (.processStageChunk request eventLimit shouldCancel) hw
      trivial
    rwa [step_eq_of_run hrun] at hnext
  | other _ op hop hactive ih =>
    obtain ⟨hw, hprogress⟩ := ih
    exact ⟨.next op hw trivial, hprogress.other (reactionsInOrder_of_reachable hw)
      (wired_of_reachable hw).agrees hop hactive⟩

/-- **What a reaction stage covers.**  Over all its chunks a stage runs the first of its targets,
each once and in order, and none but the last stops; when it completes, all targets were run, or
the last sequence stopped and its mixture waits for the client. -/
theorem react_stage_coverage (hreachable : Reachable (D := D) w₀)
    (h : ReactRun (D := D) w₀ evaluated w) {request : StageChunkRequest D}
    (hstage : request.stage = .react) {eventLimit : UInt32} {shouldCancel : Nat → Bool}
    {result : StageChunkResult}
    (hrun : run (processStageChunk request eventLimit shouldCancel) w = (.ok result, w'))
    (hpending : result.pending = false) :
    w₀.stageTargets.Nodup ∧
      Completed w₀.stageTargets (evaluated ++ evaluations request shouldCancel w) w' := by
  obtain ⟨hw, hprogress⟩ := h.progress hreachable
  have hchunk := (reactionsInOrder_of_reachable hw).completedChunk (wired_of_reachable hw).agrees
    (poolFrom_of_reachable hw) (committed_length_of_reachable hw) hprogress.scratch hstage hrun
    hpending
  refine ⟨nodup_outstanding _ _, ?_, fun e he => ?_, ?_⟩
  · rw [hprogress.targets, List.map_append]
    exact (List.prefix_append_right_inj _).2 hchunk.covered
  · rcases hempty : evaluations request shouldCancel w with _ | ⟨first, rest⟩
    · rw [hempty, List.append_nil] at he
      exact hprogress.running e (List.mem_of_mem_dropLast he)
    · rw [hempty, List.dropLast_append_of_ne_nil (by simp)] at he
      rcases List.mem_append.1 he with he | he
      · exact hprogress.running e he
      · exact hchunk.running e (hempty ▸ he)
  · rcases hchunk.outcome with ⟨hall, hnone⟩ | ⟨e, pending, continuation, token, hlast, hrest⟩
    · refine .inl ⟨?_, fun e he => ?_⟩
      · rw [hprogress.targets, hall, List.map_append]
      · exact (List.mem_append.1 he).elim (hprogress.running e) (hnone e)
    · refine .inr ⟨e, pending, continuation, token, ?_, hrest⟩
      rw [List.getLast?_append, hlast, Option.some_or]

end Coverage

/-! ## A target that is left behind -/

section LeftBehind

theorem reachable_pairWorld : Reachable (D := F64) pairWorld :=
  System.reachable_run ⟨0, 0, 100000, 4, 4, rfl⟩ _

/-- A chunk that returns, from what it returns. -/
theorem exists_run_of_pending (w : DogmosWorld F32) (request : StageChunkRequest F64)
    (eventLimit : UInt32) (shouldCancel : Nat → Bool) (pending : Bool)
    (h : (match (run (processStageChunk request eventLimit shouldCancel) w).1 with
      | .ok result => some result.pending
      | .error _ => none) = some pending) :
    ∃ result, run (processStageChunk request eventLimit shouldCancel) w =
      (.ok result, step w (.processStageChunk request eventLimit shouldCancel : Op F32 F64)) ∧
        result.pending = pending := by
  rcases hrun : run (processStageChunk request eventLimit shouldCancel) w with ⟨error | result, w'⟩
  · rw [hrun] at h
    cases h
  · rw [hrun] at h
    rw [step_eq_of_run hrun]
    exact ⟨result, rfl, Option.some.inj h⟩

theorem react_stage_coverage_pair :
    pairWorld.stageTargets = [⟨0, 1⟩, ⟨1, 1⟩] ∧ pairWorld.stageTargets.Nodup ∧
      Completed pairWorld.stageTargets
        (([] ++ evaluations (reactRequest 1) (fun _ => false) pairWorld) ++
          evaluations (reactRequest 8) (fun _ => false) (step pairWorld (reactChunk 1)))
        (step (step pairWorld (reactChunk 1)) (reactChunk 8)) := by
  refine ⟨by decide +kernel, ?_⟩
  obtain ⟨first, hfirst, hpending⟩ := exists_run_of_pending pairWorld (reactRequest 1) 4
    (fun _ => false) true (by decide +kernel)
  obtain ⟨last, hlast, hdone⟩ := exists_run_of_pending (step pairWorld (reactChunk 1))
    (reactRequest 8) 4 (fun _ => false) false (by decide +kernel)
  have hidle : pairWorld.stageCursor.isNone = true := by decide +kernel
  have hstarted := (ReactRun.start (D := F64) (Option.isNone_iff_eq_none.1 hidle)).chunk
    (reactRequest 1) 4 (fun _ => false) rfl first hfirst hpending
  exact react_stage_coverage reachable_pairWorld hstarted rfl hlast hdone

/-- **A target is left behind**: the stage completes although it has not run the sequence of its
second target, since that of the first one stopped. -/
theorem targets_left_behind : ∃ w : DogmosWorld F32, Reachable (D := F64) w ∧ w.stageCursor = none ∧
    ∃ (request : StageChunkRequest F64) (eventLimit : UInt32) (shouldCancel : Nat → Bool)
      (result : StageChunkResult) (w' : DogmosWorld F32),
      run (processStageChunk request eventLimit shouldCancel) w = (.ok result, w') ∧
        result.pending = false ∧ ∃ mixture ∈ w.stageTargets,
          mixture ∉ (evaluations request shouldCancel w).map Evaluation.mixture := by
  have hidle : pairWorld.stageCursor.isNone = true := by decide +kernel
  obtain ⟨result, hrun, hdone⟩ := exists_run_of_pending pairWorld (reactRequest 8) 4
    (fun _ => false) false (by decide +kernel)
  refine ⟨pairWorld, reachable_pairWorld, Option.isNone_iff_eq_none.1 hidle, reactRequest 8, 4,
    fun _ => false, result, _, hrun, hdone, ⟨1, 1⟩, ?_, ?_⟩
  · have htargets : pairWorld.stageTargets = [⟨0, 1⟩, ⟨1, 1⟩] := by decide +kernel
    rw [htargets]
    simp
  · have hrun : (evaluations (reactRequest 8) (fun _ => false) pairWorld).map Evaluation.mixture =
        [⟨0, 1⟩] := by decide +kernel
    rw [hrun]
    decide

end LeftBehind

end DogmosWorld

end Dogmos
