import Dogmos.Runs.Stages

/-!
# Chunks of a reaction stage, taken apart

A chunk of a reaction stage prepares targets, runs sequences, and commits when no
target remains.  `beginTargets` and `reachCommit` are the chunk up to its targets
and up to its commit, `run_processStageChunkInner_react` says that the chunk is
`reachCommit` and, when that gets there, the commit.  `evaluations` lists the
sequences a chunk runs, each with the world it runs in.
-/

namespace Dogmos

open Exec Chunk

namespace DogmosWorld

variable {F D : Type} [FloatFormat F] [FloatFormat D] [FloatCast F D]

/-! ## The parts of a chunk -/

/-- One unit of the targets. -/
def targetUnit (shouldCancel : Nat → Bool) : ChunkM F Bool :=
  checkedBefore shouldCancel (fun w => w.remainingTargets ≠ 0) computeNextTarget

/-- A chunk up to its targets: the result when its preparation is not complete. -/
def beginTargets (request : StageChunkRequest D) (shouldCancel : Nat → Bool) :
    ChunkM F (Option StageChunkResult) := do
  onWorld (openStage request)
  checkCancelled shouldCancel
  workWhile request.workLimit.toNat
    (checkedBefore shouldCancel (fun w => w.remainingPreparation ≠ 0) (prepareNext request.stage))
  let chunk ← get
  if chunk.world.remainingPreparation ≠ 0 then
    return some (pendingResult chunk chunk.world.remainingPreparation)
  else return none

/-- The targets of a chunk: the result when some remain. -/
def finishTargets (request : StageChunkRequest D) (shouldCancel : Nat → Bool) :
    ChunkM F (Option StageChunkResult) := do
  workWhile request.workLimit.toNat (targetUnit shouldCancel)
  let chunk ← get
  if chunk.world.remainingTargets ≠ 0 then
    return some (pendingResult chunk chunk.world.remainingTargets)
  else return none

/-- A chunk up to its commit: the result when it does not get there. -/
def reachCommit (request : StageChunkRequest D) (shouldCancel : Nat → Bool) :
    ChunkM F (Option StageChunkResult) := do
  match ← beginTargets request shouldCancel with
  | some result => return some result
  | none => finishTargets request shouldCancel

/-- The commit of a chunk. -/
def commitTargets (eventCapacity : Nat) : ChunkM F StageChunkResult := do
  let chunk ← get
  let (_, callbackEvents) ← onWorld (commitStageReactions eventCapacity)
  onWorld clearCursor
  return { finishedResult chunk with callbackEvents }

theorem run_beginTargets (request : StageChunkRequest D) (shouldCancel : Nat → Bool)
    (eventCapacity : Nat) (chunk : Chunk F) :
    run (processStageChunkInner request eventCapacity shouldCancel) chunk =
      match run (beginTargets request shouldCancel) chunk with
      | (.ok (some result), chunk) => (.ok result, chunk)
      | (.ok none, chunk) => run (runStage request eventCapacity shouldCancel) chunk
      | (.error error, chunk) => (.error error, chunk) := by
  unfold processStageChunkInner beginTargets phase
  rw [run_bind, run_bind]
  rcases run (onWorld (openStage request)) chunk with ⟨error | _, chunk⟩
  · rfl
  · dsimp only
    rw [run_bind, run_bind]
    rcases run (checkCancelled shouldCancel) chunk with ⟨error | _, chunk⟩
    · rfl
    · dsimp only
      rw [run_bind, run_bind]
      rcases run (workWhile request.workLimit.toNat (checkedBefore shouldCancel
        (fun w => decide (w.remainingPreparation ≠ 0)) (prepareNext request.stage))) chunk with
        ⟨error | _, chunk⟩
      · rfl
      · dsimp only
        rw [run_bind, run_bind, run_get]
        dsimp only
        by_cases hremaining : chunk.world.remainingPreparation ≠ 0
        · rw [if_pos hremaining, if_pos hremaining]
          rfl
        · rw [if_neg hremaining, if_neg hremaining]
          rfl

omit [FloatFormat D] [FloatCast F D] in
theorem run_finishTargets (request : StageChunkRequest D) (shouldCancel : Nat → Bool)
    (eventCapacity : Nat) (chunk : Chunk F) :
    run (runTargets eventCapacity request.workLimit.toNat shouldCancel) chunk =
      match run (finishTargets request shouldCancel) chunk with
      | (.ok (some result), chunk) => (.ok result, chunk)
      | (.ok none, chunk) => run (commitTargets eventCapacity) chunk
      | (.error error, chunk) => (.error error, chunk) := by
  unfold runTargets finishTargets phase targetUnit
  rw [run_bind, run_bind]
  rcases run (workWhile request.workLimit.toNat (checkedBefore shouldCancel
    (fun w => decide (w.remainingTargets ≠ 0)) computeNextTarget)) chunk with ⟨error | _, chunk⟩
  · rfl
  · dsimp only
    rw [run_bind, run_bind, run_get]
    dsimp only
    by_cases hremaining : chunk.world.remainingTargets ≠ 0
    · rw [if_pos hremaining, if_pos hremaining]
      rfl
    · rw [if_neg hremaining, if_neg hremaining]
      rfl

/-- **A chunk of a reaction stage** is the part up to its commit, and the commit. -/
theorem run_processStageChunkInner_react {request : StageChunkRequest D}
    (hstage : request.stage = .react) (shouldCancel : Nat → Bool) (eventCapacity : Nat)
    (chunk : Chunk F) :
    run (processStageChunkInner request eventCapacity shouldCancel) chunk =
      match run (reachCommit request shouldCancel) chunk with
      | (.ok (some result), chunk) => (.ok result, chunk)
      | (.ok none, chunk) => run (commitTargets eventCapacity) chunk
      | (.error error, chunk) => (.error error, chunk) := by
  have htargets : runStage (F := F) request eventCapacity shouldCancel =
      runTargets eventCapacity request.workLimit.toNat shouldCancel := by
    unfold runStage
    rw [hstage]
  rw [run_beginTargets, htargets]
  unfold reachCommit
  rw [run_bind]
  rcases run (beginTargets request shouldCancel) chunk with ⟨error | (_ | result), chunk⟩
  · rfl
  · exact run_finishTargets request shouldCancel eventCapacity chunk
  · rfl

omit [FloatFormat F] [FloatFormat D] [FloatCast F D] in
/-- The commit of a chunk, as an equation. -/
theorem run_commitTargets (eventCapacity : Nat) (chunk : Chunk F) :
    run (commitTargets eventCapacity) chunk =
      match run (commitStageReactions (F := F) eventCapacity) chunk.world with
      | (.ok (_, callbackEvents), v) =>
        (.ok { finishedResult chunk with callbackEvents },
          { chunk with world := { v with stageCursor := none } })
      | (.error error, v) => (.error error, { chunk with world := v }) := by
  unfold commitTargets
  rw [run_bind, run_get]
  dsimp only
  rw [run_bind, run_onWorld]
  rcases run (commitStageReactions (F := F) eventCapacity) chunk.world with ⟨error | counts, v⟩
  · rfl
  · rfl

/-- What a chunk of a reaction stage returns and leaves. -/
theorem run_processStageChunk_react {request : StageChunkRequest D}
    (hstage : request.stage = .react) (eventLimit : UInt32) (shouldCancel : Nat → Bool)
    (w : DogmosWorld F) :
    run (processStageChunk request eventLimit shouldCancel) w =
      match run (reachCommit request shouldCancel) { world := w, workItems := 0, checks := 0 } with
      | (.ok (some result), chunk) => (.ok result, chunk.world)
      | (.ok none, chunk) =>
        match run (commitTargets (min w.maxEvents eventLimit).toNat) chunk with
        | (.ok result, chunk) => (.ok result, chunk.world)
        | (.error error, chunk) => (.error error, chunk.world.abortStage)
      | (.error error, chunk) => (.error error, chunk.world.abortStage) := by
  unfold processStageChunk
  rw [run_bind, run_get]
  dsimp only
  rw [run_processStageChunkInner_react hstage]
  rcases run (reachCommit request shouldCancel) { world := w, workItems := 0, checks := 0 } with
    ⟨error | (_ | result), chunk⟩
  · rfl
  · dsimp only
    rcases run (commitTargets (min w.maxEvents eventLimit).toNat) chunk with ⟨error | result, chunk⟩
    · rfl
    · rfl
  · rfl

/-- The world a chunk of a reaction stage leaves. -/
theorem final_processStageChunk_react {request : StageChunkRequest D}
    (hstage : request.stage = .react) (eventLimit : UInt32) (shouldCancel : Nat → Bool)
    (w : DogmosWorld F) :
    (processStageChunk request eventLimit shouldCancel).final w =
      match run (reachCommit request shouldCancel) { world := w, workItems := 0, checks := 0 } with
      | (.ok (some _), chunk) => chunk.world
      | (.ok none, chunk) =>
        match run (commitTargets (min w.maxEvents eventLimit).toNat) chunk with
        | (.ok _, chunk) => chunk.world
        | (.error _, chunk) => chunk.world.abortStage
      | (.error _, chunk) => chunk.world.abortStage := by
  unfold final
  rw [run_processStageChunk_react hstage]
  rcases run (reachCommit request shouldCancel) { world := w, workItems := 0, checks := 0 } with
    ⟨error | (_ | result), chunk⟩
  · rfl
  · dsimp only
    rcases run (commitTargets (min w.maxEvents eventLimit).toNat) chunk with ⟨error | result, chunk⟩
    · rfl
    · rfl
  · rfl

omit [FloatCast F D] in
/-- A chunk up to its commit keeps what its units and the start of a stage keep. -/
theorem keeps_reachCommit {J : DogmosWorld F → Prop} (hunit : ∀ w w', UnitStep w w' → J w → J w')
    (request : StageChunkRequest D) (hopen : Keeps J (openStage request))
    (shouldCancel : Nat → Bool) : KeepsWorld J (reachCommit (F := F) request shouldCancel) := by
  have hbegin : KeepsWorld J (beginTargets (F := F) request shouldCancel) := by
    refine keeps_bind (keeps_onWorld hopen) fun _ => ?_
    refine keeps_bind (keeps_checkCancelled shouldCancel) fun _ => ?_
    refine keeps_bind (keeps_get_bind fun chunk => keeps_workLoop ?_ _) fun _ => ?_
    · refine keeps_checkedBefore _ _ (keeps_of_units hunit fun origin tokens => ?_)
      exact keeps_prepareNext origin tokens request.stage
    · exact keeps_get_bind fun chunk => keeps_ite (fun _ => keeps_pure _) fun _ => keeps_pure _
  have hfinish : KeepsWorld J (finishTargets (F := F) request shouldCancel) := by
    refine keeps_bind (keeps_get_bind fun chunk => keeps_workLoop ?_ _) fun _ => ?_
    · exact keeps_checkedBefore _ _ (keeps_of_units hunit fun origin tokens =>
        keeps_computeNextTarget origin tokens)
    · exact keeps_get_bind fun chunk => keeps_ite (fun _ => keeps_pure _) fun _ => keeps_pure _
  unfold reachCommit
  refine keeps_bind hbegin fun result => ?_
  cases result with
  | none => exact hfinish
  | some result => exact keeps_pure _

/-! ## The sequences a chunk runs -/

/-- The target a unit runs the sequence of: the next one, unless its mixture was seen before or
waits for a continuation. -/
def evaluatedTarget (w : DogmosWorld F) : Option (TurfHandle × MixtureHandle) := do
  let state ← w.stageReactions
  let (turf, mixture) ← state.targets[state.nextTarget]?
  if !(SlotSet.insertNew state.seenMixtures mixture).1 ||
      SlotSet.contains state.activeContinuations mixture then none
  else some (turf, mixture)

/-- The worlds in which the units of the targets start, in order. -/
def targetWorlds (shouldCancel : Nat → Bool) : Nat → Chunk F → List (DogmosWorld F)
  | 0, _ => []
  | budget + 1, chunk =>
    if chunk.world.remainingTargets = 0 ∨ shouldCancel chunk.checks then []
    else
      chunk.world ::
        match run computeNextTarget chunk.world with
        | (.ok _, w) =>
          targetWorlds shouldCancel budget
            { world := w, workItems := chunk.workItems + 1, checks := chunk.checks + 1 }
        | (.error _, _) => []

/-- A sequence a chunk runs: the world it runs in, its turf and its mixture. -/
structure Evaluation (F : Type) where
  world : DogmosWorld F
  turf : TurfHandle
  mixture : MixtureHandle

/-- The sequences among the units that start in the given worlds. -/
def evaluationsIn (worlds : List (DogmosWorld F)) : List (Evaluation F) :=
  worlds.filterMap fun w => w.evaluatedTarget.map fun (turf, mixture) => { world := w, turf, mixture }

/-- The sequences a chunk runs. -/
def evaluations (request : StageChunkRequest D) (shouldCancel : Nat → Bool) (w : DogmosWorld F) :
    List (Evaluation F) :=
  if request.stage = .react then
    match run (beginTargets request shouldCancel) { world := w, workItems := 0, checks := 0 } with
    | (.ok none, chunk) =>
      evaluationsIn
        (targetWorlds shouldCancel (request.workLimit.toNat - chunk.workItems) chunk)
    | _ => []
  else []

end DogmosWorld

end Dogmos
