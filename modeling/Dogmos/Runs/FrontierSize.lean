import Dogmos.Runs.Batches

/-!
# The size of the frontier

The turfs of the committed frontier are distinct keys of the map from handles to
positions (`committed_length_le`), and the map never has more than `u32::MAX` of
them: an upload and an addition are checked against the number of turf slots.  So
a stage that has prepared as many turfs as it counts has prepared them all
(`committed_length_of_reachable`).
-/

namespace Dogmos

variable {F D : Type}

namespace FrontierState

variable {state state' : FrontierState}

/-! ## Handles and positions -/

theorem mem_committed {handle : TurfHandle} (h : handle ∈ state.committed) :
    handle ∈ state.committedSet := by
  unfold committed at h
  obtain ⟨⟨found, index⟩, -, hfound⟩ := List.mem_filterMap.1 h
  dsimp only at hfound
  split at hfound
  · next hindex =>
    cases hfound
    rw [Std.TreeMap.mem_iff_isSome_getElem?, hindex]
    rfl
  · cases hfound

/-- Every handle counts in one position only. -/
theorem nodup_committed (state : FrontierState) : state.committed.Nodup := by
  have hfrom : ∀ (entries : List TurfHandle) (start : Nat),
      ((entries.zipIdx start).filterMap fun entry =>
        if state.committedSet[entry.1]? = some entry.2 then some entry.1 else none).Nodup := by
    intro entries
    induction entries with
    | nil => exact fun _ => List.nodup_nil
    | cons handle rest ih =>
      intro start
      rw [List.zipIdx_cons, List.filterMap_cons]
      dsimp only
      by_cases hindex : state.committedSet[handle]? = some start
      · rw [if_pos hindex]
        refine List.nodup_cons.2 ⟨fun hmem => ?_, ih _⟩
        obtain ⟨⟨found, index⟩, hfound, hsame⟩ := List.mem_filterMap.1 hmem
        dsimp only at hsame
        split at hsame
        · next hlater =>
          cases hsame
          rw [hindex] at hlater
          have hle := List.le_snd_of_mem_zipIdx hfound
          cases hlater
          dsimp only at hle
          omega
        · cases hsame
      · rw [if_neg hindex]
        exact ih _
  exact hfrom state.entries 0

/-- There are no more turfs on the frontier than keys in the map. -/
theorem committed_length_le (state : FrontierState) :
    state.committed.length ≤ state.committedSet.size := by
  rw [← Std.TreeMap.length_keys]
  refine (List.subperm_of_subset state.nodup_committed fun handle hhandle => ?_).length_le
  exact Std.TreeMap.mem_keys.2 (mem_committed hhandle)

theorem size_indexFrom_le (handles : List TurfHandle) (set : Std.TreeMap TurfHandle Nat)
    (start : Nat) : (indexFrom set handles start).size ≤ set.size + handles.length := by
  unfold indexFrom
  induction handles generalizing set start with
  | nil => exact Nat.le_refl _
  | cons handle rest ih =>
    rw [List.zipIdx_cons, List.foldl_cons]
    have hrest := ih (set.insert handle start) (start + 1)
    have hinsert : (set.insert handle start).size ≤ set.size + 1 := Std.TreeMap.size_insert_le
    dsimp only at hrest ⊢
    rw [List.length_cons]
    omega

/-- Keys that are present are only moved. -/
theorem size_indexFrom_of_mem (handles : List TurfHandle) (set : Std.TreeMap TurfHandle Nat)
    (start : Nat) (h : ∀ handle ∈ handles, handle ∈ set) :
    (indexFrom set handles start).size = set.size := by
  unfold indexFrom
  induction handles generalizing set start with
  | nil => rfl
  | cons handle rest ih =>
    rw [List.zipIdx_cons, List.foldl_cons]
    dsimp only
    refine (ih (set.insert handle start) (start + 1) fun other hother => ?_).trans ?_
    · exact Std.TreeMap.mem_insert.2 (.inr (h other (List.mem_cons_of_mem _ hother)))
    · rw [Std.TreeMap.size_insert]
      exact if_pos (h handle List.mem_cons_self)

theorem size_compact (state : FrontierState) :
    state.compact.committedSet.size = state.committedSet.size := by
  unfold compact
  split
  · rfl
  · exact size_indexFrom_of_mem _ _ _ fun _ hhandle => mem_committed hhandle

theorem size_eraseAll_le (handles : List TurfHandle) (set : Std.TreeMap TurfHandle Nat) :
    (handles.foldl (fun set handle => set.erase handle) set).size ≤ set.size := by
  induction handles generalizing set with
  | nil => exact Nat.le_refl _
  | cons handle rest ih => exact (ih _).trans Std.TreeMap.size_erase_le

/-! ## The counts fit -/

/-- The number of turfs, uploaded or committed, fits into 32 bits. -/
structure Small (state : FrontierState) : Prop where
  staging : state.staging.length < 2 ^ 32
  size : state.committedSet.size < 2 ^ 32

theorem small_empty : empty.Small :=
  ⟨by decide, by show (∅ : Std.TreeMap TurfHandle Nat).size < _; simp⟩

/-- The cells of an upload are as many as it asks for, which 32 bits count. -/
theorem resized_lt (table : List TurfHandle) (expected : UInt32) (handle : TurfHandle) :
    (resized table expected.toNat handle).length < 2 ^ 32 := by
  rw [length_resized]
  exact expected.toNat_lt

theorem Small.commitValidated (h : state.Small) (epoch : UInt64) :
    (state.commitValidated epoch).2.Small := by
  refine ⟨by show ([] : List TurfHandle).length < _; decide, ?_⟩
  have hsize := size_indexFrom_le state.staging ∅ 0
  have hempty : (∅ : Std.TreeMap TurfHandle Nat).size = 0 := Std.TreeMap.size_emptyc
  have hstaging := h.staging
  show (indexFrom ∅ state.staging 0).size < _
  omega

/-- Compaction does not touch the upload. -/
theorem Small.compact (h : state.Small) : state.compact.Small := by
  refine ⟨?_, by rw [size_compact]; exact h.size⟩
  unfold FrontierState.compact
  split <;> exact h.staging

theorem Small.erased (h : state.Small) (handles : List TurfHandle) : (state.erased handles).Small :=
  ⟨h.staging, Nat.lt_of_le_of_lt (size_eraseAll_le handles _) h.size⟩

open Exec

theorem small_tryReserve (granted : Bool) : Keeps Small (tryReserve granted) := keeps_check _

/-- The counts fit where a reservation fails, too. -/
theorem small_begin (epoch : UInt64) (expected maximum : UInt32) (reserve : Nat → Bool) :
    Keeps Small (begin epoch expected maximum reserve) := by
  unfold begin
  refine keeps_check_bind fun _ => keeps_bind (small_tryReserve _) fun _ => ?_
  refine keeps_bind (keeps_modify fun state h => ⟨resized_lt _ _ _, h.size⟩) fun _ => ?_
  refine keeps_bind (small_tryReserve _) fun _ => ?_
  refine keeps_bind (keeps_modify fun state h => ⟨h.staging, h.size⟩) fun _ => ?_
  exact keeps_bind (small_tryReserve _) fun _ => keeps_modify fun state h => ⟨h.staging, h.size⟩

theorem small_append (epoch : UInt64) (offset : UInt32) (handles : List TurfHandle)
    (reserve : Nat → Bool) : Keeps Small (append epoch offset handles reserve) := by
  intro state h
  rcases hrun : run (append epoch offset handles reserve) state with ⟨error | count, state'⟩
  · rw [append_error hrun]
    exact h
  · obtain ⟨-, -, -, hbounds, -, -, rfl⟩ := append_ok hrun
    refine ⟨?_, h.size⟩
    have hstaging := h.staging
    have hexpected := state.uploadExpected.toNat_lt
    show (overwrite state.staging offset.toNat handles).length < _
    unfold overwrite
    rw [List.length_append, List.length_append, List.length_take, List.length_drop]
    omega

theorem small_add (epoch : UInt64) (handles : List TurfHandle) (maximum : UInt32) :
    Keeps Small (add epoch handles maximum) := by
  intro state h
  rcases hrun : run (add epoch handles maximum) state with ⟨error | count, state'⟩
  · rw [add_error hrun]
    exact h
  · obtain ⟨-, hroom, -, -, rfl⟩ := add_ok hrun
    have hsize := size_indexFrom_le handles state.compact.committedSet
      state.compact.entries.length
    have hsame := size_compact state
    have hmaximum := maximum.toNat_lt
    refine ⟨h.compact.staging, ?_⟩
    dsimp only
    omega

theorem small_remove (epoch : UInt64) (handles : List TurfHandle) :
    Keeps Small (remove epoch handles) := by
  intro state h
  rcases hrun : run (remove epoch handles) state with ⟨error | count, state'⟩
  · rw [remove_error hrun]
    exact h
  · obtain ⟨-, -, rfl⟩ := remove_ok hrun
    exact ⟨(h.erased handles).compact.staging, (h.erased handles).compact.size⟩

end FrontierState

/-! ## Every reachable world -/

namespace DogmosWorld

open Exec

variable {w : DogmosWorld F}

theorem recordsClosed_frontier [FloatFormat F] (frontier : FrontierState) :
    RecordsClosed fun w : DogmosWorld F => w.frontier = frontier where
  writeMixture w slot f _ h := by
    unfold writeMixture
    split <;> exact h
  edges _ _ _ h := h
  configuration _ _ _ h := h
  events _ _ h := h
  settle _ _ hstep h := ContinuationClosed.settle
    (I := fun w : DogmosWorld F => w.frontier = frontier) (fun _ _ _ h => h) hstep h
  writeTurf w slot f h := by
    unfold writeTurf
    split <;> exact h
  putTurf _ _ _ _ h := h
  growTurfs _ _ h := h
  heatActive _ _ h := h
  topology _ _ h := h
  mixtureTurfs _ _ h := h
  putMixture _ _ _ _ h := h
  growMixtures _ _ h := h

variable [FloatFormat F] [FloatFormat D]

theorem frontier_of_stageStep {w' : DogmosWorld F} (h : StageStep (D := D) w w') :
    w'.frontier = w.frontier := congrArg Ground.frontier (effect_of_stageStep h).1

variable [FloatCast F D]

/-- The operations that do not write the frontier leave it alone. -/
theorem frontier_step {op : Op F D} (hop : ¬op.IsFrontier) :
    (step w op).frontier = w.frontier := by
  have hclosed := recordsClosed_frontier (F := F) w.frontier
  by_cases hbatch : op.IsBatch
  · exact keeps_exec_of_isBatch hclosed hbatch w rfl
  · refine keeps_exec_of_sequenceClosed hclosed.toSequenceClosed hbatch ?_
      (keeps_exec_of_isInstall fun _ _ _ h => h) (fun h => absurd h hop) (fun hrun => ?_) w rfl
    · rintro mutations rfl
      exact keeps_discard (keeps_applyAdjacency hclosed.edges _)
    cases hrun with
    | reactMixture mixture target threshold eventLimit clock =>
      exact keeps_discard (keeps_reactMixture hclosed.toSequenceClosed
        (keeps_allocateContinuation fun _ _ _ h => h) _ _ _ _ _)
    | processStageChunk request eventLimit shouldCancel =>
      refine keeps_discard fun v hv => ?_
      exact processStageChunk_induct (fun _ _ hstep h => (frontier_of_stageStep hstep).trans h) v
        request eventLimit shouldCancel hv

omit [FloatFormat F] [FloatFormat D] [FloatCast F D] in
theorem keeps_onFrontier_small {α : Type} {call : Exec FrontierError FrontierState α}
    (hcall : Keeps FrontierState.Small call) :
    Keeps (fun w : DogmosWorld F => w.frontier.Small) (onFrontier call) :=
  keeps_embed fun w hw => hcall w.frontier hw

theorem small_step (h : w.frontier.Small) (op : Op F D) : (step w op).frontier.Small := by
  by_cases hop : op.IsFrontier
  · have hkeeps : Keeps (fun w : DogmosWorld F => w.frontier.Small) (exec op) := by
      cases hop with
      | beginFrontier epoch expected reserve =>
        refine keeps_bind (keeps_rejectActiveStage _) fun _ => keeps_get_bind fun _ => ?_
        exact keeps_onFrontier_small (FrontierState.small_begin _ _ _ _)
      | appendFrontier epoch offset handles reserve =>
        exact keeps_discard (keeps_onFrontier_small (FrontierState.small_append _ _ _ _))
      | commitFrontier epoch =>
        refine keeps_discard (keeps_bind (keeps_rejectActiveStage _) fun _ => ?_)
        refine keeps_check_bind fun pending => keeps_bind (keeps_requireTurfHandles pending) fun _ => ?_
        refine keeps_get_bind fun _ => keeps_bind (keeps_modify fun w hw => ?_) fun _ => keeps_pure _
        exact hw.commitValidated epoch
      | addFrontier epoch handles =>
        refine keeps_discard (keeps_bind (keeps_rejectActiveStage _) fun _ => ?_)
        refine keeps_bind (keeps_requireTurfHandles handles) fun _ => keeps_get_bind fun _ => ?_
        exact keeps_onFrontier_small (FrontierState.small_add _ _ _)
      | removeFrontier epoch handles =>
        refine keeps_discard (keeps_bind (keeps_rejectActiveStage _) fun _ => ?_)
        exact keeps_onFrontier_small (FrontierState.small_remove _ _)
    exact hkeeps w h
  · rw [frontier_step hop]
    exact h

/-- **The frontier of every reachable world** has fewer than `2 ^ 32` turfs. -/
theorem committed_length_of_reachable (h : Reachable (D := D) w) :
    w.frontier.committed.length < 2 ^ 32 := by
  have hsmall : w.frontier.Small := by
    refine reachable_induct (I := fun w => w.frontier.Small) ?_ (fun _ op hw => small_step hw op) h
    rintro w ⟨_, _, _, _, _, rfl⟩
    exact FrontierState.small_empty
  exact Nat.lt_of_le_of_lt w.frontier.committed_length_le hsmall.size

end DogmosWorld

end Dogmos
