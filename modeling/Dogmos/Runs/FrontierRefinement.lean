import Dogmos.Runs.FrontierCalls
import Mathlib.Data.List.ReduceOption

/-!
# A frontier is a list

The committed frontier is meant to be a plain list without repetitions: a commit
replaces it by what was uploaded, in the order of the offsets, an addition appends
to it and a removal deletes from it (`FrontierModel.replay`).  The code keeps it in
another way.  A removal only takes handles out of the map to positions, so that an
entry of the list counts when the map points to its position; now and then the list
is compacted; and the turfs that count are cached (`CachedFrontier`).

A rejected call should change nothing.  The exception is a `begin` that runs out of
memory after it has resized or cleared the tables of an upload that is open
(`spoilt_upload`).

* `Represents` — the relation between a frontier and the model, clause by clause;
* `represents_call` — an accepted call is the same call on the model;
* `represents_iff_spares` — which rejected calls leave the model's state alone;
* `frontier_refines_list` — a run whose calls spare the open upload is the replay of the accepted
  ones.
-/

namespace Dogmos

/-- The turfs of a frontier, the epoch they were committed with, and the cells of an upload that
is open. -/
structure FrontierModel where
  epoch : Option UInt64
  members : List TurfHandle
  upload : Option (UInt64 × List (Option TurfHandle))

namespace FrontierModel

/-- A frontier nothing was committed to. -/
def empty : FrontierModel := ⟨none, [], none⟩

/-- The cells of the open upload. -/
def cells (model : FrontierModel) : List (Option TurfHandle) :=
  match model.upload with
  | some (_, cells) => cells
  | none => []

/-- What an accepted call does to the list. -/
def replay (model : FrontierModel) : FrontierCall → FrontierModel
  | .begin epoch expected _ _ =>
    { model with upload := some (epoch, List.replicate expected.toNat none) }
  | .append epoch offset handles _ =>
    { model with
      upload :=
        some (epoch, FrontierState.overwrite model.cells offset.toNat (handles.map some)) }
  | .commit epoch => ⟨some epoch, model.cells.reduceOption, none⟩
  | .add epoch handles _ =>
    { model with epoch := some epoch, members := model.members ++ handles }
  | .remove epoch handles =>
    { model with
      epoch := some epoch
      members := model.members.filter fun handle => !handles.contains handle }
  | .committed => model

end FrontierModel

/-- `FrontierState` with `committed_view`, the view that `committed` caches. -/
structure CachedFrontier where
  state : FrontierState
  committedView : Option (List TurfHandle)

namespace CachedFrontier

/-- `FrontierState::default`. -/
def empty : CachedFrontier := ⟨.empty, none⟩

/-- `FrontierState::committed`, which computes the view once. -/
def committed (frontier : CachedFrontier) : List TurfHandle × CachedFrontier :=
  match frontier.committedView with
  | some view => (view, frontier)
  | none =>
    (frontier.state.committed, { frontier with committedView := some frontier.state.committed })

open Exec

/-- A call; the calls that commit take the view away. -/
def call : FrontierCall → Exec FrontierError CachedFrontier FrontierAnswer
  | .committed => do
    let frontier ← get
    set frontier.committed.2
    return .handles frontier.committed.1
  | call => do
    let answer ← Exec.embed CachedFrontier.state (fun frontier state => { frontier with state }) id
      (FrontierState.call call)
    if call.committing.isSome then
      modify fun frontier => { frontier with committedView := none }
    return answer

/-- The frontier a call leaves, whether it is accepted or rejected. -/
def step (frontier : CachedFrontier) (call : FrontierCall) : CachedFrontier :=
  (CachedFrontier.call call).final frontier

/-- The calls of a list that are accepted one after another. -/
def accepted (frontier : CachedFrontier) : List FrontierCall → List FrontierCall
  | [] => []
  | call :: rest =>
    match (CachedFrontier.call call).result frontier with
    | .ok _ => call :: (frontier.step call).accepted rest
    | .error _ => (frontier.step call).accepted rest

end CachedFrontier

namespace FrontierState

open Exec

variable {state state' : FrontierState}

/-! ## Positions -/

theorem getElem?_indexFrom_of_notMem {handles : List TurfHandle} {handle : TurfHandle}
    (h : handle ∉ handles) (set : Std.TreeMap TurfHandle Nat) (start : Nat) :
    (indexFrom set handles start)[handle]? = set[handle]? := by
  unfold indexFrom
  induction handles generalizing set start with
  | nil => rfl
  | cons first rest ih =>
    rw [List.zipIdx_cons, List.foldl_cons]
    dsimp only
    rw [ih (fun hmem => h (List.mem_cons_of_mem _ hmem)), Std.TreeMap.getElem?_insert]
    have hne : compare first handle ≠ .eq := fun heq =>
      h (Std.LawfulEqCmp.eq_of_compare heq ▸ List.mem_cons_self)
    rw [if_neg hne]

/-- The handle at a position of a list without repetitions is mapped to that position. -/
theorem getElem?_indexFrom {handles : List TurfHandle} (hnodup : handles.Nodup)
    (set : Std.TreeMap TurfHandle Nat) (start : Nat) {handle : TurfHandle} {index : Nat}
    (h : handles[index]? = some handle) :
    (indexFrom set handles start)[handle]? = some (start + index) := by
  induction handles generalizing set start index with
  | nil => cases h
  | cons first rest ih =>
    obtain ⟨hfirst, hrest⟩ := List.nodup_cons.1 hnodup
    cases index with
    | zero =>
      cases h
      have hkept := getElem?_indexFrom_of_notMem hfirst (set.insert handle start) (start + 1)
      rw [Std.TreeMap.getElem?_insert_self] at hkept
      exact hkept
    | succ index =>
      have hlater := ih hrest (set.insert first start) (start + 1) h
      rw [Nat.add_assoc, Nat.add_comm 1 index] at hlater
      exact hlater

/-- The entries of a list, counted from a start, that the map points to. -/
def live (set : Std.TreeMap TurfHandle Nat) (entries : List TurfHandle) (start : Nat) :
    List TurfHandle :=
  (entries.zipIdx start).filterMap fun (handle, index) =>
    if set[handle]? = some index then some handle else none

theorem committed_eq_live (state : FrontierState) :
    state.committed = live state.committedSet state.entries 0 := rfl

theorem live_append (set : Std.TreeMap TurfHandle Nat) (entries handles : List TurfHandle)
    (start : Nat) :
    live set (entries ++ handles) start =
      live set entries start ++ live set handles (start + entries.length) := by
  unfold live
  rw [List.zipIdx_append, List.filterMap_append]

theorem live_cons (set : Std.TreeMap TurfHandle Nat) (handle : TurfHandle)
    (rest : List TurfHandle) (start : Nat) :
    live set (handle :: rest) start =
      (if set[handle]? = some start then [handle] else []) ++ live set rest (start + 1) := by
  unfold live
  rw [List.zipIdx_cons, List.filterMap_cons]
  dsimp only
  by_cases h : set[handle]? = some start
  · rw [if_pos h, if_pos h]
    rfl
  · rw [if_neg h, if_neg h]
    rfl

/-- Everything counts when the map points to every position. -/
theorem live_eq_self {set : Std.TreeMap TurfHandle Nat} {handles : List TurfHandle} {start : Nat}
    (h : ∀ index handle, handles[index]? = some handle → set[handle]? = some (start + index)) :
    live set handles start = handles := by
  induction handles generalizing start with
  | nil => rfl
  | cons first rest ih =>
    have hzero := h 0 first rfl
    rw [Nat.add_zero] at hzero
    rw [live_cons, if_pos hzero, ih fun index handle hindex => ?_]
    · rfl
    · have hlater := h (index + 1) handle hindex
      rw [Nat.add_comm index 1, ← Nat.add_assoc] at hlater
      exact hlater

/-- What counts depends on the positions of the entries only. -/
theorem live_congr {set set' : Std.TreeMap TurfHandle Nat} {entries : List TurfHandle}
    {start : Nat}
    (h : ∀ index handle, entries[index]? = some handle →
      (set'[handle]? = some (start + index) ↔ set[handle]? = some (start + index))) :
    live set' entries start = live set entries start := by
  induction entries generalizing start with
  | nil => rfl
  | cons first rest ih =>
    have hzero := h 0 first rfl
    rw [Nat.add_zero] at hzero
    rw [live_cons, live_cons, ih fun index handle hindex => ?_]
    · by_cases hfirst : set[first]? = some start
      · rw [if_pos hfirst, if_pos (hzero.2 hfirst)]
      · rw [if_neg hfirst, if_neg fun hfirst' => hfirst (hzero.1 hfirst')]
    · have hlater := h (index + 1) handle hindex
      rw [Nat.add_comm index 1, ← Nat.add_assoc] at hlater
      exact hlater

theorem mem_live {set : Std.TreeMap TurfHandle Nat} {entries : List TurfHandle} {start index : Nat}
    {handle : TurfHandle} (hentry : entries[index]? = some handle)
    (hset : set[handle]? = some (start + index)) : handle ∈ live set entries start := by
  unfold live
  refine List.mem_filterMap.2 ⟨(handle, start + index), ?_, if_pos hset⟩
  rw [List.mem_zipIdx_iff_le_and_getElem?_sub]
  exact ⟨Nat.le_add_right _ _, by rw [Nat.add_sub_cancel_left]; exact hentry⟩

/-- Every position the map knows is that of the handle. -/
def Indexed (state : FrontierState) : Prop :=
  ∀ (handle : TurfHandle) (index : Nat), state.committedSet[handle]? = some index →
    state.entries[index]? = some handle

theorem Indexed.mem_committed_iff (h : state.Indexed) (handle : TurfHandle) :
    handle ∈ state.committed ↔ handle ∈ state.committedSet := by
  refine ⟨mem_committed, fun hmem => ?_⟩
  obtain ⟨index, hindex⟩ := Option.isSome_iff_exists.1 (Std.TreeMap.isSome_getElem?_iff_mem.2 hmem)
  refine mem_live (h handle index hindex) ?_
  rw [Nat.zero_add]
  exact hindex

/-- The map has one key for every turf that counts. -/
theorem Indexed.size_eq (h : state.Indexed) :
    state.committedSet.size = state.committed.length := by
  rw [← Std.TreeMap.length_keys]
  refine (List.Perm.length_eq ?_)
  rw [List.perm_ext_iff_of_nodup Std.TreeMap.nodup_keys state.nodup_committed]
  intro handle
  rw [h.mem_committed_iff, Std.TreeMap.mem_keys]

/-- A list without repetitions, kept with its positions, counts as a whole. -/
theorem live_indexFrom {handles : List TurfHandle} (hnodup : handles.Nodup)
    (set : Std.TreeMap TurfHandle Nat) (start : Nat) :
    live (indexFrom set handles start) handles start = handles :=
  live_eq_self fun _ _ hindex => getElem?_indexFrom hnodup set start hindex

/-- A position the map knows is that of a handle of the list, or was known before. -/
theorem indexFrom_points {handles : List TurfHandle} {set : Std.TreeMap TurfHandle Nat}
    {start index : Nat} {handle : TurfHandle}
    (h : (indexFrom set handles start)[handle]? = some index) :
    start ≤ index ∧ handles[index - start]? = some handle ∨
      handle ∉ handles ∧ set[handle]? = some index := by
  induction handles generalizing set start with
  | nil => exact .inr ⟨List.not_mem_nil, h⟩
  | cons first rest ih =>
    have hlater : (indexFrom (set.insert first start) rest (start + 1))[handle]? = some index := h
    rcases ih hlater with ⟨hle, hrest⟩ | ⟨hrest, hset⟩
    · refine .inl ⟨by omega, ?_⟩
      rw [show index - start = index - (start + 1) + 1 from by omega]
      exact hrest
    · rw [Std.TreeMap.getElem?_insert] at hset
      by_cases hfirst : first = handle
      · subst hfirst
        rw [if_pos Std.ReflCmp.compare_self] at hset
        cases hset
        exact .inl ⟨Nat.le_refl _, by rw [Nat.sub_self]; rfl⟩
      · rw [if_neg fun heq => hfirst (Std.LawfulEqCmp.eq_of_compare heq)] at hset
        refine .inr ⟨fun hmem => ?_, hset⟩
        rcases List.mem_cons.1 hmem with heq | hmem
        · exact hfirst heq.symm
        · exact hrest hmem

/-- The positions of a list that was added after others. -/
theorem indexed_indexFrom {set : Std.TreeMap TurfHandle Nat} (entries : List TurfHandle)
    {handles : List TurfHandle} (hset : ∀ handle index, handle ∉ handles → set[handle]? = some index →
      entries[index]? = some handle) (handle : TurfHandle) (index : Nat)
    (h : (indexFrom set handles entries.length)[handle]? = some index) :
    (entries ++ handles)[index]? = some handle := by
  rcases indexFrom_points h with ⟨hle, hindex⟩ | ⟨hmem, hposition⟩
  · rw [List.getElem?_append_right hle]
    exact hindex
  · have hentry := hset handle index hmem hposition
    have hlt : index < entries.length := (List.getElem?_eq_some_iff.1 hentry).1
    rw [List.getElem?_append_left hlt]
    exact hentry

/-! ## Compaction -/

theorem Indexed.compact (h : state.Indexed) : state.compact.Indexed := by
  unfold FrontierState.compact
  split
  · exact h
  · intro handle index hindex
    refine indexed_indexFrom [] (fun other position hother hposition => ?_) handle index hindex
    refine absurd ((h.mem_committed_iff other).2 ?_) hother
    exact Std.TreeMap.isSome_getElem?_iff_mem.1 (by rw [hposition]; rfl)

/-- Compaction does not change what counts. -/
theorem committed_compact (state : FrontierState) : state.compact.committed = state.committed := by
  unfold FrontierState.compact
  split
  · rfl
  · exact live_indexFrom state.nodup_committed state.committedSet 0

/-! ## Commit, addition and removal -/

theorem indexed_commitValidated (state : FrontierState) (epoch : UInt64) :
    (state.commitValidated epoch).2.Indexed := by
  intro handle index hindex
  refine indexed_indexFrom [] (fun other position _ hposition => ?_) handle index hindex
  rw [Std.TreeMap.getElem?_emptyc] at hposition
  cases hposition

theorem committed_commitValidated (hnodup : state.staging.Nodup) (epoch : UInt64) :
    (state.commitValidated epoch).2.committed = state.staging :=
  live_indexFrom hnodup ∅ 0

/-- A handle that is not present, and not twice in the list. -/
theorem firstDuplicate_none {present : TurfHandle → Bool} {handles : List TurfHandle}
    {incoming : Std.TreeSet TurfHandle} (h : firstDuplicate present handles incoming = none) :
    handles.Nodup ∧ ∀ handle ∈ handles, present handle = false ∧ handle ∉ incoming := by
  induction handles generalizing incoming with
  | nil => exact ⟨List.nodup_nil, fun _ hmem => absurd hmem List.not_mem_nil⟩
  | cons first rest ih =>
    unfold firstDuplicate at h
    split at h
    · cases h
    · next hfirst =>
      rw [Bool.or_eq_true, not_or, Bool.not_eq_true, Std.TreeSet.contains_iff_mem] at hfirst
      obtain ⟨hnodup, hrest⟩ := ih h
      refine ⟨List.nodup_cons.2 ⟨fun hmem => ?_, hnodup⟩, fun handle hmem => ?_⟩
      · exact (hrest first hmem).2 Std.TreeSet.mem_insert_self
      · rcases List.mem_cons.1 hmem with rfl | hmem
        · exact hfirst
        · refine ⟨(hrest handle hmem).1, fun hincoming => (hrest handle hmem).2 ?_⟩
          exact Std.TreeSet.mem_insert.2 (.inr hincoming)

/-- The frontier with a list of new handles at its end. -/
theorem committed_extended {set : Std.TreeMap TurfHandle Nat} {entries handles : List TurfHandle}
    (hnew : ∀ handle ∈ handles, handle ∉ set) (hnodup : handles.Nodup) :
    live (indexFrom set handles entries.length) (entries ++ handles) 0 =
      live set entries 0 ++ handles := by
  rw [live_append, Nat.zero_add, live_indexFrom hnodup]
  congr 1
  refine live_congr fun index handle hindex => ?_
  have hlt : index < entries.length := (List.getElem?_eq_some_iff.1 hindex).1
  by_cases hmem : handle ∈ handles
  · obtain ⟨position, hposition⟩ := List.mem_iff_getElem?.1 hmem
    have hnone : set[handle]? = none := Std.TreeMap.getElem?_eq_none (hnew handle hmem)
    rw [getElem?_indexFrom hnodup set _ hposition, hnone, Option.some.injEq]
    exact ⟨fun heq => (by omega), fun heq => by cases heq⟩
  · rw [getElem?_indexFrom_of_notMem hmem]

theorem getElem?_eraseAll (handles : List TurfHandle) (set : Std.TreeMap TurfHandle Nat)
    (handle : TurfHandle) :
    (handles.foldl (fun set handle => set.erase handle) set)[handle]? =
      if handle ∈ handles then none else set[handle]? := by
  induction handles generalizing set with
  | nil => rfl
  | cons first rest ih =>
    rw [List.foldl_cons, ih, Std.TreeMap.getElem?_erase]
    by_cases hmem : handle ∈ rest
    · rw [if_pos hmem, if_pos (List.mem_cons_of_mem _ hmem)]
    · rw [if_neg hmem]
      by_cases hfirst : first = handle
      · subst hfirst
        rw [if_pos Std.ReflCmp.compare_self, if_pos List.mem_cons_self]
      · rw [if_neg fun heq => hfirst (Std.LawfulEqCmp.eq_of_compare heq), if_neg fun hcons => ?_]
        rcases List.mem_cons.1 hcons with heq | hrest
        · exact hfirst heq.symm
        · exact hmem hrest

theorem Indexed.erased (h : state.Indexed) (handles : List TurfHandle) :
    (state.erased handles).Indexed := by
  intro handle index hindex
  unfold FrontierState.erased at hindex
  dsimp only at hindex
  rw [getElem?_eraseAll] at hindex
  split at hindex
  · cases hindex
  · exact h handle index hindex

theorem committed_erased (state : FrontierState) (handles : List TurfHandle) :
    (state.erased handles).committed =
      state.committed.filter fun handle => !handles.contains handle := by
  rw [committed_eq_live, committed_eq_live]
  show live (handles.foldl (fun set handle => set.erase handle) state.committedSet) state.entries 0 =
    (live state.committedSet state.entries 0).filter fun handle => !handles.contains handle
  unfold live
  rw [List.filter_filterMap]
  congr 1
  funext ⟨handle, index⟩
  dsimp only
  rw [getElem?_eraseAll]
  by_cases hmem : handle ∈ handles
  · rw [if_pos hmem, if_neg (by simp)]
    split
    · rw [Option.filter_some, if_neg (by simpa using hmem)]
    · rfl
  · rw [if_neg hmem]
    split
    · rw [Option.filter_some, if_pos (by simpa using hmem)]
    · rfl

/-- An addition appends to the committed turfs. -/
theorem committed_add (h : state.Indexed) {epoch : UInt64} {handles : List TurfHandle}
    {maximum count : UInt32} (hadd : run (add epoch handles maximum) state = (.ok count, state')) :
    state'.committed = state.committed ++ handles ∧ state'.Indexed ∧
      count.toNat = handles.length := by
  obtain ⟨-, hroom, hduplicate, rfl, hstate⟩ := add_ok hadd
  obtain ⟨hnodup, hnew⟩ := firstDuplicate_none hduplicate
  have hindexed := h.compact
  have habsent : ∀ handle ∈ handles, handle ∉ state.compact.committedSet := by
    intro handle hhandle hmem
    rw [← hindexed.mem_committed_iff, committed_compact, h.mem_committed_iff] at hmem
    have hcontains := (hnew handle hhandle).1
    rw [Std.TreeMap.contains_iff_mem.2 hmem] at hcontains
    cases hcontains
  refine ⟨?_, ?_, ?_⟩
  · rw [hstate]
    refine (committed_extended habsent hnodup).trans ?_
    rw [← committed_eq_live, committed_compact]
  · rw [hstate]
    intro handle index hindex
    exact indexed_indexFrom _ (fun other position _ hposition => hindexed other position hposition)
      handle index hindex
  · have hmaximum := maximum.toNat_lt
    exact UInt32.toNat_ofNatClamp_of_lt (show handles.length < 2 ^ 32 by omega)

/-- A removal deletes from the committed turfs, and returns how many it deleted. -/
theorem committed_remove (h : state.Indexed) (hsmall : state.Small) {epoch : UInt64}
    {handles : List TurfHandle} {count : UInt32}
    (hremove : run (remove epoch handles) state = (.ok count, state')) :
    state'.committed = state.committed.filter (fun handle => !handles.contains handle) ∧
      state'.Indexed ∧
        count.toNat = (state.committed.filter fun handle => handles.contains handle).length := by
  obtain ⟨-, hcount, hstate⟩ := remove_ok hremove
  have hindexed := (h.erased handles).compact
  have hcommitted : (state.erased handles).compact.committed =
      state.committed.filter fun handle => !handles.contains handle := by
    rw [committed_compact, committed_erased]
  refine ⟨?_, ?_, ?_⟩
  · rw [hstate]
    exact hcommitted
  · rw [hstate]
    exact hindexed
  · have hsplit := List.length_eq_length_filter_add (l := state.committed)
      fun handle => handles.contains handle
    have hlt := hsmall.size
    rw [h.size_eq] at hlt
    rw [hcount, hindexed.size_eq, h.size_eq, hcommitted,
      UInt32.toNat_ofNat_of_lt' (show _ < 2 ^ 32 by omega)]
    omega

/-! ## The upload -/

theorem length_overwrite {α : Type} {table values : List α} {offset : Nat}
    (h : offset + values.length ≤ table.length) :
    (overwrite table offset values).length = table.length := by
  unfold overwrite
  rw [List.length_append, List.length_append, List.length_take, List.length_drop]
  omega

theorem getElem?_overwrite {α : Type} {table values : List α} {offset : Nat}
    (h : offset + values.length ≤ table.length) (index : Nat) :
    (overwrite table offset values)[index]? =
      if offset ≤ index ∧ index < offset + values.length then values[index - offset]?
      else table[index]? := by
  unfold overwrite
  rw [List.append_assoc, List.getElem?_append, List.length_take, Nat.min_eq_left (by omega)]
  by_cases hbefore : index < offset
  · rw [if_pos hbefore, if_neg (by omega), List.getElem?_take_of_lt hbefore]
  · rw [if_neg hbefore, List.getElem?_append]
    by_cases hinside : index - offset < values.length
    · rw [if_pos hinside, if_pos (by omega)]
    · rw [if_neg hinside, if_neg (by omega), List.getElem?_drop]
      congr 1
      omega

/-- A table is its cells before, inside and after a range. -/
theorem take_range_drop {α : Type} (table : List α) (offset count : Nat) :
    table = table.take offset ++ (table.drop offset).take count ++ table.drop (offset + count) := by
  rw [List.append_assoc, ← List.drop_drop, List.take_append_drop, List.take_append_drop]

/-- The cells of the open upload, as the frontier keeps them: a table of handles, a bit for every
cell that was received, the set of what was received, and how many. -/
structure Uploaded (state : FrontierState) (cells : List (Option TurfHandle)) : Prop where
  expected : cells.length = state.uploadExpected.toNat
  staging : state.staging.length = cells.length
  handles : ∀ (index : Nat) (handle : TurfHandle), cells[index]? = some (some handle) →
    state.staging[index]? = some handle
  bits : ∀ (index : Nat) (cell : Option TurfHandle), cells[index]? = some cell →
    state.receivedBits[index]? = some cell.isSome
  seen : ∀ handle : TurfHandle, handle ∈ state.uploadSeen ↔ some handle ∈ cells
  received : state.uploadReceived.toNat = cells.countP Option.isSome
  distinct : cells.reduceOption.Nodup

/-- Cells that have all been received are the table of handles. -/
theorem Uploaded.complete {cells : List (Option TurfHandle)} (h : state.Uploaded cells)
    (hcomplete : state.uploadReceived = state.uploadExpected) :
    cells = state.staging.map some := by
  have hall : ∀ cell ∈ cells, cell.isSome = true := by
    rw [← List.countP_eq_length, ← h.received, hcomplete, h.expected]
  refine List.ext_getElem? fun index => ?_
  rw [List.getElem?_map]
  rcases hcell : cells[index]? with _ | cell
  · rw [List.getElem?_eq_none]
    · rfl
    · rw [h.staging]
      exact List.getElem?_eq_none_iff.1 hcell
  · obtain ⟨handle, rfl⟩ := Option.isSome_iff_exists.1 (hall cell (List.mem_of_getElem? hcell))
    rw [h.handles index handle hcell]
    rfl

/-- There is a bit for every cell. -/
theorem Uploaded.length_le_bits {cells : List (Option TurfHandle)} (h : state.Uploaded cells) :
    cells.length ≤ state.receivedBits.length := by
  rcases hlength : cells.length with _ | last
  · exact Nat.zero_le _
  · have hcell : cells[last]? = some cells[last] := List.getElem?_eq_getElem (by omega)
    exact (List.getElem?_eq_some_iff.1 (h.bits last _ hcell)).1

/-- The cells of an upload into which nothing was received. -/
theorem uploaded_cleared {expected : UInt32} (hexpected : state.uploadExpected = expected)
    (hreceived : state.uploadReceived = 0) (hstaging : state.staging.length = expected.toNat)
    (hbits : state.receivedBits = List.replicate ((expected.toNat + 63) / 64 * 64) false)
    (hseen : state.uploadSeen = ∅) : state.Uploaded (List.replicate expected.toNat none) := by
  have hcell : ∀ (index : Nat) (cell : Option TurfHandle),
      (List.replicate expected.toNat none)[index]? = some cell →
        cell = none ∧ index < expected.toNat := by
    intro index cell h
    rw [List.getElem?_replicate] at h
    split at h
    · next hlt => exact ⟨(Option.some.inj h).symm, hlt⟩
    · cases h
  refine ⟨?_, ?_, fun index handle h => ?_, fun index cell h => ?_, fun handle => ⟨fun h => ?_,
    fun h => ?_⟩, ?_, ?_⟩
  · rw [List.length_replicate, hexpected]
  · rw [List.length_replicate, hstaging]
  · cases (hcell index _ h).1
  · obtain ⟨rfl, hlt⟩ := hcell index cell h
    rw [hbits, List.getElem?_replicate, if_pos (by omega)]
    rfl
  · rw [hseen] at h
    exact absurd h Std.TreeSet.not_mem_emptyc
  · cases List.eq_of_mem_replicate h
  · rw [List.countP_replicate, hreceived]
    rfl
  · rw [List.reduceOption_replicate_none]
    exact List.nodup_nil

theorem uploaded_begin {epoch : UInt64} {expected maximum : UInt32} {reserve : Nat → Bool}
    {u : Unit} (hbegin : run (begin epoch expected maximum reserve) state = (.ok u, state')) :
    state'.Uploaded (List.replicate expected.toNat none) := by
  rw [(begin_ok hbegin).2]
  exact uploaded_cleared rfl rfl (length_resized _ _ _) rfl rfl

theorem mem_foldl_insert (handles : List TurfHandle) (seen : Std.TreeSet TurfHandle)
    (handle : TurfHandle) :
    handle ∈ handles.foldl (fun seen handle => seen.insert handle) seen ↔
      handle ∈ handles ∨ handle ∈ seen := by
  induction handles generalizing seen with
  | nil => simp
  | cons first rest ih =>
    rw [List.foldl_cons, ih, Std.TreeSet.mem_insert, List.mem_cons]
    have heq : compare first handle = .eq ↔ handle = first :=
      Std.LawfulEqCmp.compare_eq_iff_eq.trans eq_comm
    rw [heq]
    tauto

/-- The cells of a range that was not received are empty. -/
theorem Uploaded.range_empty {cells : List (Option TurfHandle)} (h : state.Uploaded cells)
    {offset count : Nat}
    (hreceived : ((state.receivedBits.drop offset).take count).any id = false) :
    (cells.drop offset).take count = List.replicate ((cells.drop offset).take count).length none := by
  refine List.eq_replicate_of_mem fun cell hmem => ?_
  obtain ⟨index, hindex⟩ := List.mem_iff_getElem?.1 hmem
  have hlt : index < count := by
    have hlength := (List.getElem?_eq_some_iff.1 hindex).1
    rw [List.length_take] at hlength
    omega
  rw [List.getElem?_take_of_lt hlt, List.getElem?_drop] at hindex
  have hbit := h.bits _ cell hindex
  rw [List.any_eq_false] at hreceived
  have hunset := hreceived cell.isSome (List.mem_iff_getElem?.2 ⟨index, by
    rw [List.getElem?_take_of_lt hlt, List.getElem?_drop]
    exact hbit⟩)
  simpa using hunset

theorem reduceOption_map_some (handles : List TurfHandle) :
    (handles.map some).reduceOption = handles := by
  induction handles with
  | nil => rfl
  | cons handle rest ih =>
    rw [List.map_cons, List.reduceOption_cons_of_some, ih]

theorem Uploaded.append {cells : List (Option TurfHandle)} (h : state.Uploaded cells)
    {epoch : UInt64} {offset count : UInt32} {handles : List TurfHandle} {reserve : Nat → Bool}
    (happend : run (append epoch offset handles reserve) state = (.ok count, state')) :
    state'.Uploaded (overwrite cells offset.toNat (handles.map some)) ∧
      count.toNat = handles.length := by
  obtain ⟨-, hlarge, rfl, hbounds, hreceived, hduplicate, rfl⟩ := append_ok happend
  have hcount : (UInt32.ofNat handles.length).toNat = handles.length :=
    UInt32.toNat_ofNat_of_lt' hlarge
  obtain ⟨hnodup, hnew⟩ := firstDuplicate_none hduplicate
  have hcells : offset.toNat + (handles.map some).length ≤ cells.length := by
    rw [List.length_map, h.expected]
    exact hbounds
  have hstaging : offset.toNat + handles.length ≤ state.staging.length := by
    rw [h.staging, h.expected]
    exact hbounds
  -- the overwritten cells were empty
  have hempty := h.range_empty hreceived
  have hsplit := take_range_drop cells offset.toNat handles.length
  rw [hempty] at hsplit
  refine ⟨⟨?_, ?_, fun index handle hcell => ?_, fun index cell hcell => ?_, fun handle => ?_, ?_, ?_⟩,
    hcount⟩
  · rw [length_overwrite hcells]
    exact h.expected
  · rw [length_overwrite hcells, length_overwrite hstaging]
    exact h.staging
  · rw [getElem?_overwrite hcells] at hcell
    rw [getElem?_overwrite hstaging]
    rw [List.length_map] at hcell
    split at hcell
    · next hinside =>
      rw [if_pos hinside]
      rw [List.getElem?_map] at hcell
      rcases hhandle : handles[index - offset.toNat]? with _ | found
      · rw [hhandle] at hcell
        cases hcell
      · rw [hhandle] at hcell
        cases hcell
        rfl
    · next houtside =>
      rw [if_neg houtside]
      exact h.handles index handle hcell
  · have hbits : offset.toNat + (List.replicate handles.length true).length ≤
        state.receivedBits.length := by
      rw [List.length_replicate]
      rw [List.length_map] at hcells
      exact hcells.trans h.length_le_bits
    rw [getElem?_overwrite hcells, List.length_map] at hcell
    rw [getElem?_overwrite hbits, List.length_replicate]
    split at hcell
    · next hinside =>
      rw [if_pos hinside, List.getElem?_replicate, if_pos (by omega)]
      rw [List.getElem?_map] at hcell
      rcases hhandle : handles[index - offset.toNat]? with _ | found
      · rw [hhandle] at hcell
        cases hcell
      · rw [hhandle] at hcell
        cases hcell
        rfl
    · next houtside =>
      rw [if_neg houtside]
      exact h.bits index cell hcell
  · rw [mem_foldl_insert, h.seen]
    unfold overwrite
    rw [List.length_map]
    conv_lhs => rw [hsplit]
    simp only [List.mem_append, List.mem_replicate, List.mem_map, Option.some.injEq,
      exists_eq_right, reduceCtorEq, and_false, or_false]
    tauto
  · have hpresent : (overwrite cells offset.toNat (handles.map some)).countP Option.isSome =
        cells.countP Option.isSome + handles.length := by
      unfold overwrite
      conv_rhs => rw [hsplit]
      have hmap : (handles.map some).countP Option.isSome = handles.length := by
        rw [List.countP_map]
        exact List.countP_eq_length.2 fun _ _ => rfl
      rw [List.length_map, List.countP_append, List.countP_append, List.countP_append,
        List.countP_append, List.countP_replicate, hmap]
      simp only [Option.isSome_none, Bool.false_eq_true, if_false]
      omega
    have hlt : (overwrite cells offset.toNat (handles.map some)).countP Option.isSome < 2 ^ 32 := by
      refine Nat.lt_of_le_of_lt List.countP_le_length ?_
      rw [length_overwrite hcells, h.expected]
      exact UInt32.toNat_lt _
    show (state.uploadReceived + UInt32.ofNat handles.length).toNat = _
    rw [UInt32.toNat_add, hcount, h.received, hpresent]
    rw [hpresent] at hlt
    exact Nat.mod_eq_of_lt hlt
  · have hold := h.distinct
    rw [hsplit, List.reduceOption_append, List.reduceOption_append,
      List.reduceOption_replicate_none, List.append_nil] at hold
    have hfresh : ∀ handle ∈ handles, handle ∉ (cells.take offset.toNat).reduceOption ++
        (cells.drop (offset.toNat + handles.length)).reduceOption := by
      intro handle hhandle hmem
      have hseen : handle ∈ state.uploadSeen := by
        rw [h.seen]
        rcases List.mem_append.1 hmem with hmem | hmem
        · exact List.mem_of_mem_take (List.reduceOption_mem_iff.1 hmem)
        · exact List.mem_of_mem_drop (List.reduceOption_mem_iff.1 hmem)
      have habsent := (hnew handle hhandle).1
      rw [Std.TreeSet.contains_iff_mem.2 hseen] at habsent
      cases habsent
    unfold overwrite
    rw [List.length_map, List.reduceOption_append, List.reduceOption_append, reduceOption_map_some,
      List.append_assoc]
    refine (List.perm_append_comm_assoc _ _ _).nodup_iff.2 (List.nodup_append.2 ⟨hnodup, hold, ?_⟩)
    rintro handle hhandle other hother rfl
    exact hfresh handle hhandle hother

/-- The upload is kept by what does not touch it. -/
theorem Uploaded.of_same {cells : List (Option TurfHandle)} (h : state.Uploaded cells)
    (hsame : state'.SameUpload state) (hseen : state'.uploadSeen = state.uploadSeen) :
    state'.Uploaded cells where
  expected := hsame.expected ▸ h.expected
  staging := hsame.staging ▸ h.staging
  handles := hsame.staging ▸ h.handles
  bits := hsame.receivedBits ▸ h.bits
  seen := hseen ▸ h.seen
  received := hsame.received ▸ h.received
  distinct := h.distinct

/-! ## One call -/

/-- A frontier and the list it stands for. -/
structure Represents (state : FrontierState) (model : FrontierModel) : Prop where
  epoch : state.committedEpoch = model.epoch
  members : state.committed = model.members
  indexed : state.Indexed
  small : state.Small
  uploadEpoch : state.uploadEpoch = model.upload.map Prod.fst
  upload : state.uploadEpoch.isSome → state.Uploaded model.cells

theorem represents_empty : empty.Represents .empty where
  epoch := rfl
  members := rfl
  indexed handle index h := by
    unfold empty at h
    dsimp only at h
    rw [Std.TreeMap.getElem?_emptyc] at h
    cases h
  small := small_empty
  uploadEpoch := rfl
  upload h := by cases h

/-- A frontier without repetitions. -/
theorem Represents.nodup {model : FrontierModel} (h : state.Represents model) :
    model.members.Nodup := by
  rw [← h.members]
  exact state.nodup_committed

end FrontierState

/-- The answer to an accepted call, as the list gives it.  A commit finds every cell filled. -/
def FrontierModel.Answers (model : FrontierModel) (answer : FrontierAnswer) : FrontierCall → Prop
  | .begin _ _ _ _ => answer = .done
  | .append _ _ handles _ => ∃ count, answer = .count count ∧ count.toNat = handles.length
  | .commit _ =>
    ∃ count, answer = .count count ∧ count.toNat = model.cells.length ∧
      ∀ cell ∈ model.cells, cell.isSome
  | .add _ handles _ => ∃ count, answer = .count count ∧ count.toNat = handles.length
  | .remove _ handles =>
    ∃ count, answer = .count count ∧
      count.toNat = (model.members.filter fun handle => handles.contains handle).length
  | .committed => answer = .handles model.members

namespace FrontierState

open Exec

variable {state state' : FrontierState} {model : FrontierModel}

theorem Represents.begin (h : state.Represents model) {epoch : UInt64} {expected maximum : UInt32}
    {reserve : Nat → Bool} {u : Unit}
    (hbegin : run (begin epoch expected maximum reserve) state = (.ok u, state')) :
    state'.Represents (model.replay (.begin epoch expected maximum reserve)) := by
  have hupload := uploaded_begin hbegin
  have hsmall := (small_begin epoch expected maximum reserve).of_run hbegin h.small
  obtain ⟨-, rfl⟩ := begin_ok hbegin
  exact ⟨h.epoch, h.members, h.indexed, hsmall, rfl, fun _ => hupload⟩

theorem Represents.append (h : state.Represents model) {epoch : UInt64} {offset count : UInt32}
    {handles : List TurfHandle} {reserve : Nat → Bool}
    (happend : run (append epoch offset handles reserve) state = (.ok count, state')) :
    state'.Represents (model.replay (.append epoch offset handles reserve)) ∧
      count.toNat = handles.length := by
  have hepoch := (append_ok happend).1
  obtain ⟨hupload, hcount⟩ := (h.upload (by rw [hepoch]; rfl)).append happend
  have hsmall := (small_append epoch offset handles reserve).of_run happend h.small
  obtain ⟨-, -, -, -, -, -, rfl⟩ := append_ok happend
  exact ⟨⟨h.epoch, h.members, h.indexed, hsmall, hepoch, fun _ => hupload⟩, hcount⟩

theorem Represents.commit (h : state.Represents model) {epoch : UInt64} {handles : List TurfHandle}
    (hpending : state.pending epoch = .ok handles) :
    (state.commitValidated epoch).2.Represents (model.replay (.commit epoch)) ∧
      (state.commitValidated epoch).1.toNat = model.cells.length ∧
        ∀ cell ∈ model.cells, cell.isSome := by
  obtain ⟨hepoch, hcomplete, -⟩ := pending_ok hpending
  have hupload := h.upload (by rw [hepoch]; rfl)
  have hcells := hupload.complete hcomplete
  have hstaging : model.cells.reduceOption = state.staging := by
    rw [hcells, reduceOption_map_some]
  have hnodup : state.staging.Nodup := hstaging ▸ hupload.distinct
  refine ⟨⟨rfl, ?_, indexed_commitValidated state epoch, h.small.commitValidated epoch, rfl,
    fun hopen => by cases hopen⟩, ?_, fun cell hcell => ?_⟩
  · exact (committed_commitValidated hnodup epoch).trans hstaging.symm
  · rw [hcells, List.length_map]
    exact UInt32.toNat_ofNat_of_lt' h.small.staging
  · rw [hcells] at hcell
    obtain ⟨handle, -, rfl⟩ := List.mem_map.1 hcell
    rfl

theorem Represents.add (h : state.Represents model) {epoch : UInt64} {handles : List TurfHandle}
    {maximum count : UInt32}
    (hadd : run (add epoch handles maximum) state = (.ok count, state')) :
    state'.Represents (model.replay (.add epoch handles maximum)) ∧
      count.toNat = handles.length := by
  have hsame := sameUpload_add hadd
  have hsmall := (small_add epoch handles maximum).of_run hadd h.small
  obtain ⟨hcommitted, hindexed, hcount⟩ := committed_add h.indexed hadd
  obtain ⟨-, -, -, -, hstate⟩ := add_ok hadd
  have hseen : state'.uploadSeen = state.uploadSeen := by
    rw [hstate]
    exact state.compact_fields.2.2.2.2.2.2
  have hupload : state'.uploadEpoch = state.uploadEpoch := hsame.epoch
  refine ⟨⟨?_, ?_, hindexed, hsmall, hupload.trans h.uploadEpoch, fun hopen => ?_⟩, hcount⟩
  · rw [hstate]
    rfl
  · rw [hcommitted, h.members]
    rfl
  · exact (h.upload (hupload ▸ hopen)).of_same hsame hseen

theorem Represents.remove (h : state.Represents model) {epoch : UInt64}
    {handles : List TurfHandle} {count : UInt32}
    (hremove : run (remove epoch handles) state = (.ok count, state')) :
    state'.Represents (model.replay (.remove epoch handles)) ∧
      count.toNat = (model.members.filter fun handle => handles.contains handle).length := by
  have hsame := sameUpload_remove hremove
  have hsmall := (small_remove epoch handles).of_run hremove h.small
  obtain ⟨hcommitted, hindexed, hcount⟩ := committed_remove h.indexed h.small hremove
  obtain ⟨-, -, hstate⟩ := remove_ok hremove
  have hseen : state'.uploadSeen = state.uploadSeen := by
    rw [hstate]
    exact (state.erased handles).compact_fields.2.2.2.2.2.2
  have hupload : state'.uploadEpoch = state.uploadEpoch := hsame.epoch
  rw [h.members] at hcommitted hcount
  refine ⟨⟨?_, hcommitted, hindexed, hsmall, hupload.trans h.uploadEpoch, fun hopen => ?_⟩, hcount⟩
  · rw [hstate]
    rfl
  · exact (h.upload (hupload ▸ hopen)).of_same hsame hseen

/-- **One call.**  An accepted call is the same call on the list. -/
theorem represents_call (h : state.Represents model) {call : FrontierCall}
    {answer : FrontierAnswer}
    (hcall : run (FrontierState.call call) state = (.ok answer, state')) :
    state'.Represents (model.replay call) ∧ model.Answers answer call := by
  cases call with
  | begin epoch expected maximum reserve =>
    obtain ⟨_, hbegin, rfl⟩ := run_map_eq_ok.1 hcall
    exact ⟨h.begin hbegin, rfl⟩
  | append epoch offset handles reserve =>
    obtain ⟨count, happend, rfl⟩ := run_map_eq_ok.1 hcall
    exact ⟨(h.append happend).1, count, rfl, (h.append happend).2⟩
  | commit epoch =>
    obtain ⟨⟨handles, hpending⟩, rfl, rfl⟩ := commit_ok hcall
    exact ⟨(h.commit hpending).1, _, rfl, (h.commit hpending).2⟩
  | add epoch handles maximum =>
    obtain ⟨count, hadd, rfl⟩ := run_map_eq_ok.1 hcall
    exact ⟨(h.add hadd).1, count, rfl, (h.add hadd).2⟩
  | remove epoch handles =>
    obtain ⟨count, hremove, rfl⟩ := run_map_eq_ok.1 hcall
    exact ⟨(h.remove hremove).1, count, rfl, (h.remove hremove).2⟩
  | committed =>
    cases hcall
    exact ⟨h, congrArg FrontierAnswer.handles h.members⟩

/-- What an accepted call other than a commit does to the committed turfs. -/
def Edits (before after : List TurfHandle) (answer : FrontierAnswer) : FrontierCall → Prop
  | .add _ handles _ => after = before ++ handles
  | .remove _ handles =>
    after = before.filter (fun handle => !handles.contains handle) ∧
      ∃ count, answer = .count count ∧
        count.toNat = (before.filter fun handle => handles.contains handle).length
  | .commit _ => True
  | .begin .. | .append .. | .committed => after = before

/-- The calls that commit nothing leave the committed turfs alone. -/
theorem committed_call {call : FrontierCall} {answer : FrontierAnswer}
    (hcall : run (FrontierState.call call) state = (.ok answer, state'))
    (hcommitting : call.committing = none) :
    state'.committed = state.committed ∧ (state.Indexed → state'.Indexed) := by
  cases call with
  | begin epoch expected maximum reserve =>
    obtain ⟨_, hbegin, -⟩ := run_map_eq_ok.1 hcall
    rw [(begin_ok hbegin).2]
    exact ⟨rfl, fun h => h⟩
  | append epoch offset handles reserve =>
    obtain ⟨count, happend, -⟩ := run_map_eq_ok.1 hcall
    obtain ⟨-, -, -, -, -, -, rfl⟩ := append_ok happend
    exact ⟨rfl, fun h => h⟩
  | committed =>
    cases hcall
    exact ⟨rfl, fun h => h⟩
  | _ => cases hcommitting

/-- Whatever is uploaded, the committed turfs are edited as a list. -/
theorem edits_call (h : state.Indexed) (hsmall : state.Small) {call : FrontierCall}
    {answer : FrontierAnswer}
    (hcall : run (FrontierState.call call) state = (.ok answer, state')) :
    Edits state.committed state'.committed answer call ∧ state'.Indexed := by
  cases call with
  | commit epoch =>
    obtain ⟨-, -, rfl⟩ := commit_ok hcall
    exact ⟨trivial, indexed_commitValidated state epoch⟩
  | add epoch handles maximum =>
    obtain ⟨count, hadd, -⟩ := run_map_eq_ok.1 hcall
    obtain ⟨hcommitted, hindexed, -⟩ := committed_add h hadd
    exact ⟨hcommitted, hindexed⟩
  | remove epoch handles =>
    obtain ⟨count, hremove, rfl⟩ := run_map_eq_ok.1 hcall
    obtain ⟨hcommitted, hindexed, hcount⟩ := committed_remove h hsmall hremove
    exact ⟨⟨hcommitted, count, rfl, hcount⟩, hindexed⟩
  | _ =>
    obtain ⟨hcommitted, hindexed⟩ := committed_call hcall rfl
    exact ⟨hcommitted, hindexed h⟩

theorem SameButTables.indexed (hsame : state'.SameButTables state) (h : state.Indexed) :
    state'.Indexed := by
  intro handle index hindex
  rw [hsame.committedSet] at hindex
  rw [hsame.entries]
  exact h handle index hindex

/-! ## A call that is rejected -/

/-- A call does not spoil the upload that is open: a `begin` whose first reservation succeeds gets
the other two as well, or it asks for as many handles as are expected anyway and fails before it
clears an upload that has received some. -/
def Spares (state : FrontierState) : FrontierCall → Prop
  | .begin epoch expected maximum reserve =>
    state.uploadEpoch.isSome → state.Begins epoch expected maximum → reserve 0 = true →
      reserve 1 = true ∧ reserve 2 = true ∨
        expected = state.uploadExpected ∧ (reserve 1 = true → state.uploadReceived = 0)
  | _ => True

theorem resized_self {α : Type} {table : List α} {length : Nat} (h : table.length = length)
    (value : α) : resized table length value = table := by
  subst h
  unfold resized
  rw [List.take_length, Nat.sub_self]
  exact List.append_nil _

/-- Nothing was received where no cell is filled. -/
theorem Uploaded.received_eq_zero_iff {cells : List (Option TurfHandle)} (h : state.Uploaded cells) :
    state.uploadReceived = 0 ↔ ∀ cell ∈ cells, cell = none := by
  rw [← UInt32.toNat_inj, h.received, UInt32.toNat_zero, List.countP_eq_zero]
  refine forall₂_congr fun cell _ => ?_
  rw [Bool.not_eq_true, Option.isSome_eq_false_iff, Option.isNone_iff_eq_none]

/-- The cells of an open upload have lost their table when it was resized for another one. -/
theorem Represents.expected_eq {model : FrontierModel} {expected : UInt32}
    (h : state.Represents model) (h' : state'.Represents model) (hopen : state.uploadEpoch.isSome)
    (hepoch : state'.uploadEpoch = state.uploadEpoch)
    (hstaging : state'.staging = resized state.staging expected.toNat ⟨0, 0⟩) :
    expected = state.uploadExpected := by
  have hlength := (h'.upload (hepoch ▸ hopen)).staging
  rw [hstaging, length_resized, (h.upload hopen).expected] at hlength
  exact UInt32.toNat_inj.1 hlength

/-- A table that is resized to the size it has stays what it was. -/
theorem Represents.resized_eq {model : FrontierModel} (h : state.Represents model)
    (hopen : state.uploadEpoch.isSome) :
    resized state.staging state.uploadExpected.toNat ⟨0, 0⟩ = state.staging :=
  resized_self ((h.upload hopen).staging.trans (h.upload hopen).expected) _

theorem represents_iff_spares_begin (h : state.Represents model) {epoch : UInt64}
    {expected maximum : UInt32} {reserve : Nat → Bool} {error : FrontierError}
    (hbegin : run (begin epoch expected maximum reserve) state = (.error error, state')) :
    state'.Represents model ↔ state.Spares (.begin epoch expected maximum reserve) := by
  have hsmall := (small_begin epoch expected maximum reserve).of_run hbegin h.small
  rcases begin_error hbegin with ⟨hearly, rfl⟩ |
    ⟨hbegins, hfirst, ⟨hsecond, rfl⟩ | ⟨hsecond, hthird, rfl⟩⟩
  · refine ⟨fun _ _ hbegins hfirst => ?_, fun _ => h⟩
    rw [hearly hbegins] at hfirst
    cases hfirst
  · constructor
    · intro h' hopen _ _
      refine .inr ⟨h.expected_eq h' hopen rfl rfl, fun hgranted => ?_⟩
      rw [hsecond] at hgranted
      cases hgranted
    · intro hspares
      refine ⟨h.epoch, h.members, h.indexed, hsmall, h.uploadEpoch, fun hopen => ?_⟩
      rcases hspares hopen hbegins hfirst with ⟨hgranted, -⟩ | ⟨rfl, -⟩
      · rw [hsecond] at hgranted
        cases hgranted
      · rw [h.resized_eq hopen]
        exact h.upload hopen
  · constructor
    · intro h' hopen _ _
      have hexpected := h.expected_eq h' hopen rfl rfl
      refine .inr ⟨hexpected, fun _ => ?_⟩
      rw [(h.upload hopen).received_eq_zero_iff]
      intro cell hcell
      -- a cell that was received has lost its bit
      obtain ⟨index, hindex⟩ := List.mem_iff_getElem?.1 hcell
      have hbit := (h'.upload hopen).bits index cell hindex
      have hmem := List.mem_of_getElem? hbit
      exact Option.not_isSome_iff_eq_none.1 (by rw [List.eq_of_mem_replicate hmem]; decide)
    · intro hspares
      refine ⟨h.epoch, h.members, h.indexed, hsmall, h.uploadEpoch, fun hopen => ?_⟩
      rcases hspares hopen hbegins hfirst with ⟨-, hgranted⟩ | ⟨rfl, hreceived⟩
      · rw [hthird] at hgranted
        cases hgranted
      · have hupload := h.upload hopen
        have hcells : model.cells = List.replicate state.uploadExpected.toNat none := by
          rw [← hupload.expected]
          exact List.eq_replicate_of_mem (hupload.received_eq_zero_iff.1 (hreceived hsecond))
        rw [hcells]
        exact uploaded_cleared rfl (hreceived hsecond) (length_resized _ _ _) rfl rfl

/-- **A rejected call** leaves the list and the open upload as they were exactly when it spares the
upload. -/
theorem represents_iff_spares (h : state.Represents model) {call : FrontierCall}
    {error : FrontierError}
    (hcall : run (FrontierState.call call) state = (.error error, state')) :
    state'.Represents model ↔ state.Spares call := by
  by_cases hbegin : ∃ epoch expected maximum reserve, call = .begin epoch expected maximum reserve
  · obtain ⟨epoch, expected, maximum, reserve, rfl⟩ := hbegin
    exact represents_iff_spares_begin h (run_map_eq_error.1 hcall)
  · have hspares : state.Spares call := by
      cases call with
      | begin epoch expected maximum reserve => exact absurd ⟨_, _, _, _, rfl⟩ hbegin
      | _ => trivial
    rcases error_call hcall with rfl | ⟨epoch, expected, maximum, reserve, rfl, -⟩
    · exact ⟨fun _ => hspares, fun _ => h⟩
    · exact absurd ⟨_, _, _, _, rfl⟩ hbegin

end FrontierState

namespace CachedFrontier

open Exec

variable {frontier frontier' : CachedFrontier}

/-- The cached view, if there is one, is what the list and the map give. -/
def Fresh (frontier : CachedFrontier) : Prop :=
  ∀ view, frontier.committedView = some view → view = frontier.state.committed

theorem Fresh.committed (h : frontier.Fresh) :
    frontier.committed.1 = frontier.state.committed := by
  unfold CachedFrontier.committed
  rcases hview : frontier.committedView with _ | view
  · rfl
  · exact h view hview

theorem run_call {call : FrontierCall} (hread : call ≠ .committed) (frontier : CachedFrontier) :
    run (CachedFrontier.call call) frontier =
      match run (FrontierState.call call) frontier.state with
      | (.ok answer, state) =>
        (.ok answer, ⟨state, if call.committing.isSome then none else frontier.committedView⟩)
      | (.error error, state) => (.error error, ⟨state, frontier.committedView⟩) := by
  have hcall : CachedFrontier.call call = (do
      let answer ← Exec.embed CachedFrontier.state (fun frontier state => { frontier with state })
        id (FrontierState.call call)
      if call.committing.isSome then
        modify fun frontier => { frontier with committedView := none }
      return answer) := by
    cases call with
    | committed => exact absurd rfl hread
    | _ => rfl
  rw [hcall, run_bind, run_embed]
  rcases run (FrontierState.call call) frontier.state with ⟨error | answer, state⟩
  · rfl
  · rcases call.committing with _ | epoch
    · rfl
    · rfl

/-- The cache does not show. -/
theorem Fresh.call (h : frontier.Fresh) {call : FrontierCall}
    {result : Except FrontierError FrontierAnswer}
    (hcall : run (CachedFrontier.call call) frontier = (result, frontier')) :
    run (FrontierState.call call) frontier.state = (result, frontier'.state) ∧ frontier'.Fresh := by
  by_cases hread : call = .committed
  · subst hread
    cases hcall
    have hanswer := h.committed
    have hstate : frontier.committed.2.state = frontier.state ∧ frontier.committed.2.Fresh := by
      unfold CachedFrontier.committed
      rcases hview : frontier.committedView with _ | view
      · exact ⟨rfl, fun _ hsome => (Option.some.inj hsome).symm⟩
      · exact ⟨rfl, h⟩
    refine ⟨?_, hstate.2⟩
    rw [hanswer, hstate.1]
    rfl
  · rw [run_call hread] at hcall
    rcases hstate : run (FrontierState.call call) frontier.state with ⟨error | answer, state⟩
    · rw [hstate] at hcall
      cases hcall
      refine ⟨rfl, fun view hview => ?_⟩
      exact (h view hview).trans (FrontierState.sameButTables_of_error hstate).committed.symm
    · rw [hstate] at hcall
      cases hcall
      refine ⟨rfl, fun view hview => ?_⟩
      dsimp only at hview
      split at hview
      · cases hview
      · next hcommitting =>
        rw [Bool.not_eq_true, Option.isSome_eq_false_iff, Option.isNone_iff_eq_none] at hcommitting
        exact (h view hview).trans (FrontierState.committed_call hstate hcommitting).1.symm

/-- Every call of a list spares the open upload of the frontier it finds. -/
def Spared (frontier : CachedFrontier) : List FrontierCall → Prop
  | [] => True
  | call :: rest => frontier.state.Spares call ∧ (frontier.step call).Spared rest

theorem run_call_step (frontier : CachedFrontier) (call : FrontierCall) :
    run (CachedFrontier.call call) frontier =
      ((CachedFrontier.call call).result frontier, frontier.step call) := rfl

/-- The cache does not show, positions lead to their handles and counts fit, whatever was called. -/
structure Sound (frontier : CachedFrontier) : Prop where
  fresh : frontier.Fresh
  indexed : frontier.state.Indexed
  small : frontier.state.Small

theorem sound_empty : empty.Sound :=
  ⟨fun _ hview => (by cases hview), FrontierState.represents_empty.indexed, FrontierState.small_empty⟩

theorem Sound.step (h : frontier.Sound) (call : FrontierCall) : (frontier.step call).Sound := by
  obtain ⟨hstate, hfresh⟩ := h.fresh.call (run_call_step frontier call)
  refine ⟨hfresh, ?_, (FrontierState.small_call call).of_run hstate h.small⟩
  rcases hresult : (CachedFrontier.call call).result frontier with error | answer
  · rw [hresult] at hstate
    exact (FrontierState.sameButTables_of_error hstate).indexed h.indexed
  · rw [hresult] at hstate
    exact (FrontierState.edits_call h.indexed h.small hstate).2

theorem sound_run (h : frontier.Sound) (calls : List FrontierCall) :
    (System.run CachedFrontier.step frontier calls).Sound := by
  induction calls generalizing frontier with
  | nil => exact h
  | cons call rest ih => exact ih (h.step call)

/-- The frontier after a list of calls, and the list that replays those of them it accepted. -/
theorem represents_run {model : FrontierModel} (hfresh : frontier.Fresh)
    (h : frontier.state.Represents model) (calls : List FrontierCall)
    (hspared : frontier.Spared calls) :
    (System.run step frontier calls).state.Represents
      ((frontier.accepted calls).foldl FrontierModel.replay model) := by
  induction calls generalizing frontier model with
  | nil => exact h
  | cons call rest ih =>
    obtain ⟨hspares, hrest⟩ := hspared
    obtain ⟨hstate, hfresh'⟩ := hfresh.call (run_call_step frontier call)
    rw [System.run_cons]
    unfold accepted
    rcases hresult : (CachedFrontier.call call).result frontier with error | answer
    · rw [hresult] at hstate
      exact ih hfresh' ((FrontierState.represents_iff_spares h hstate).2 hspares) hrest
    · rw [hresult] at hstate
      exact ih hfresh' (FrontierState.represents_call h hstate).1 hrest

/-- **A frontier is a list**, as long as every call spares the upload that is open.  After any such
calls, reads among them, `committed` gives what replaying the accepted ones on a plain list gives,
without repetitions; every accepted call answers as the list does; and a rejected one leaves the
list and the cells of the open upload as they were if and only if it spares the upload.

Whatever was called, the turfs that are committed stay distinct, additions and removals edit them
as a list, and a rejected call leaves them and the epochs alone. -/
theorem frontier_refines_list (calls : List FrontierCall) :
    (empty.Spared calls →
      let frontier := System.run step empty calls
      let model := (empty.accepted calls).foldl FrontierModel.replay .empty
      frontier.committed.1 = model.members ∧ model.members.Nodup ∧
        frontier.state.Represents model ∧
        (∀ call answer, (CachedFrontier.call call).result frontier = .ok answer →
          model.Answers answer call) ∧
        ∀ call error, (CachedFrontier.call call).result frontier = .error error →
          ((frontier.step call).state.Represents model ↔ frontier.state.Spares call)) ∧
    ∀ call,
      let frontier := System.run step empty calls
      frontier.committed.1.Nodup ∧
        (∀ answer, (CachedFrontier.call call).result frontier = .ok answer →
          FrontierState.Edits frontier.committed.1 (frontier.step call).committed.1 answer call) ∧
        ∀ error, (CachedFrontier.call call).result frontier = .error error →
          (frontier.step call).committed.1 = frontier.committed.1 ∧
            (frontier.step call).state.SameButTables frontier.state := by
  refine ⟨fun hspared => ?_, fun call => ?_⟩
  · intro frontier model
    have hfresh : frontier.Fresh := (sound_run sound_empty calls).fresh
    have hrepresents : frontier.state.Represents model :=
      represents_run sound_empty.fresh FrontierState.represents_empty calls hspared
    refine ⟨hfresh.committed.trans hrepresents.members, hrepresents.nodup, hrepresents,
      fun call answer hcall => ?_, fun call error hcall => ?_⟩
    · have hstate := (hfresh.call (run_call_step frontier call)).1
      rw [hcall] at hstate
      exact (FrontierState.represents_call hrepresents hstate).2
    · have hstate := (hfresh.call (run_call_step frontier call)).1
      rw [hcall] at hstate
      exact FrontierState.represents_iff_spares hrepresents hstate
  · intro frontier
    have hsound : frontier.Sound := sound_run sound_empty calls
    obtain ⟨hstate, hfresh'⟩ := hsound.fresh.call (run_call_step frontier call)
    rw [hfresh'.committed, hsound.fresh.committed]
    refine ⟨frontier.state.nodup_committed, fun answer hcall => ?_, fun error hcall => ?_⟩
    · rw [hcall] at hstate
      exact (FrontierState.edits_call hsound.indexed hsound.small hstate).1
    · rw [hcall] at hstate
      have hsame := FrontierState.sameButTables_of_error hstate
      exact ⟨hsame.committed, hsame⟩

/-- The answers of an allocator that fails at one reservation of a call. -/
def failsAt (reservation : Nat) : Nat → Bool := fun index => index != reservation

/-- An upload in two chunks that come in the wrong order, with reservations that fail before it and
during it, two removals that compact, and a turf that comes back. -/
def turnover : List FrontierCall :=
  [.begin 1 3 8 (failsAt 2), .begin 1 3 8 enoughMemory, .append 1 2 [⟨2, 1⟩] enoughMemory,
    .begin 2 8 8 (failsAt 0), .append 1 0 [⟨0, 1⟩, ⟨1, 1⟩] enoughMemory, .commit 1, .committed,
    .remove 2 [⟨0, 1⟩, ⟨7, 1⟩], .remove 3 [⟨2, 1⟩], .committed, .add 4 [⟨0, 1⟩] 8]

theorem spared_turnover : empty.Spared turnover :=
  ⟨fun hopen => absurd hopen (by decide), fun _ _ _ => .inl ⟨rfl, rfl⟩, trivial,
    fun _ _ hfirst => absurd hfirst (by decide), trivial, trivial, trivial, trivial, trivial, trivial,
    trivial, trivial⟩

theorem frontier_refines_list_turnover :
    (System.run step empty turnover).committed.1 = [⟨1, 1⟩, ⟨0, 1⟩] ∧
      (∃ count, (CachedFrontier.call (.remove 5 [⟨0, 1⟩, ⟨2, 1⟩])).result
        (System.run step empty turnover) = .ok (.count count) ∧ count.toNat = 1) ∧
      ((System.run step empty turnover).step (.add 4 [⟨2, 1⟩] 8)).committed.1 =
        [⟨1, 1⟩, ⟨0, 1⟩] := by
  obtain ⟨hmembers, -, -, hanswers, -⟩ := (frontier_refines_list turnover).1 spared_turnover
  obtain ⟨-, -, hrejected⟩ := (frontier_refines_list turnover).2 (.add 4 [⟨2, 1⟩] 8)
  have hmodel : ((empty.accepted turnover).foldl FrontierModel.replay .empty).members =
      [⟨1, 1⟩, ⟨0, 1⟩] := by decide +kernel
  have hcommitted : (System.run step empty turnover).committed.1 = [⟨1, 1⟩, ⟨0, 1⟩] :=
    hmembers.trans hmodel
  refine ⟨hcommitted, ?_, ?_⟩
  · rcases hcall : (CachedFrontier.call (.remove 5 [⟨0, 1⟩, ⟨2, 1⟩])).result
      (System.run step empty turnover) with error | answer
    · have hok : ((CachedFrontier.call (.remove 5 [⟨0, 1⟩, ⟨2, 1⟩])).result
          (System.run step empty turnover)).toBool = true := by decide +kernel
      rw [hcall] at hok
      cases hok
    · obtain ⟨count, rfl, hcount⟩ := hanswers _ _ hcall
      rw [hmodel] at hcount
      exact ⟨count, rfl, hcount⟩
  · have hconflict : (CachedFrontier.call (.add 4 [⟨2, 1⟩] 8)).result
        (System.run step empty turnover) = .error (.epochConflict (some 4) none 4) := by
      decide +kernel
    exact (hrejected _ hconflict).1.trans hcommitted

/-- An upload of two turfs that has received the first one. -/
def opened : List FrontierCall :=
  [.begin 1 2 8 enoughMemory, .append 1 0 [⟨5, 1⟩] enoughMemory]

/-- It is followed by a `begin` that fails at its last reservation, by another turf for the first
cell, and by the commit. -/
def spoilt : List FrontierCall :=
  opened ++ [.begin 2 8 8 (failsAt 2), .append 1 0 [⟨6, 1⟩] enoughMemory, .commit 1]

/-- **A rejected call spoils an upload**: the range that was received before it is accepted once
more after it, and the upload commits a cell that nobody filled. -/
theorem spoilt_upload :
    (CachedFrontier.call (.append 1 0 [⟨6, 1⟩] enoughMemory)).result
        (System.run step empty opened) = .error (.rangeAlreadyReceived 0 1) ∧
      (CachedFrontier.call (.begin 2 8 8 (failsAt 2))).result (System.run step empty opened) =
        .error .allocationFailed ∧
      (CachedFrontier.call (.append 1 0 [⟨6, 1⟩] enoughMemory)).result
        ((System.run step empty opened).step (.begin 2 8 8 (failsAt 2))) = .ok (.count 1) ∧
      (System.run step empty spoilt).committed.1 = [⟨6, 1⟩, ⟨0, 0⟩] ∧
      ((empty.accepted spoilt).foldl FrontierModel.replay .empty).members = [⟨6, 1⟩] := by
  decide +kernel

end CachedFrontier

namespace DogmosWorld

variable {F D : Type} [FloatFormat F] [FloatFormat D] [FloatCast F D] {w : DogmosWorld F}

/-- An operation spares the upload that is open. -/
def SparesUpload (w : DogmosWorld F) (op : Op F D) : Prop :=
  ∀ call, op.frontierCall w = some call → w.frontier.Spares call

/-- The frontier of a world stands for a list, in every run that spares its uploads. -/
theorem represents_of_reachable (h : ReachableWhere (D := D) SparesUpload w) :
    ∃ model, w.frontier.Represents model := by
  refine reachableWhere_induct (I := fun w => ∃ model, w.frontier.Represents model) ?_ ?_ h
  · rintro w ⟨_, _, _, _, _, rfl⟩
    exact ⟨.empty, FrontierState.represents_empty⟩
  · rintro w op - hspares ⟨model, hmodel⟩
    rcases hcall : op.frontierCall w with _ | call
    · refine ⟨model, ?_⟩
      rw [frontier_step fun hop => ?_]
      · exact hmodel
      · cases hop <;> cases hcall
    · by_cases haccepted : Accepted w op
      · obtain ⟨answer, hok, -⟩ := frontier_of_accepted hcall haccepted
        exact ⟨_, (FrontierState.represents_call hmodel hok).1⟩
      · refine ⟨model, ?_⟩
        rcases frontier_of_rejected hcall haccepted with hsame | ⟨error, hrejected⟩
        · rw [hsame]
          exact hmodel
        · exact (FrontierState.represents_iff_spares hmodel hrejected).2 (hspares call hcall)

end DogmosWorld

end Dogmos
