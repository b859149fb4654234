import Dogmos.Lib.Exec
import Dogmos.Core.SlotIndex

/-!
# The frontier

The committed frontier is the ordered set of turfs the stages work on.  It is
replaced by an upload in chunks (`begin`, `append`, `pending`, `commitValidated`)
or edited in place (`add`, `remove`).  A removed handle stays in the list until
the next compaction; the map from handle to position decides which entries of
the list count.

A call is a computation on the frontier that may fail, and what it wrote before it
failed stays.  `reserve` answers its reservations of memory, one after another.
Every call but `begin` writes after its last check only; `begin` writes between its
reservations (`begin_error`).
-/

namespace Dogmos

/-- The answers of an allocator that never fails. -/
def enoughMemory : Nat → Bool := fun _ => true

/-- `FrontierError`. -/
inductive FrontierError
  | invalidEpoch (epoch : UInt64)
  | epochConflict (committed uploading : Option UInt64) (requested : UInt64)
  | countExceeded (actual maximum : UInt32)
  | rangeOutOfBounds (offset count expected : UInt32)
  | rangeAlreadyReceived (offset count : UInt32)
  | incomplete (epoch : UInt64) (expected received : UInt32)
  | duplicateHandle (handle : TurfHandle)
  | allocationFailed
deriving DecidableEq

/-- `FrontierState`; the view `committed` caches is recomputed. -/
structure FrontierState where
  committedEpoch : Option UInt64
  entries : List TurfHandle
  committedSet : Std.TreeMap TurfHandle Nat
  uploadEpoch : Option UInt64
  uploadExpected : UInt32
  uploadReceived : UInt32
  staging : List TurfHandle
  receivedBits : List Bool
  uploadSeen : Std.TreeSet TurfHandle

namespace FrontierState

/-- `FrontierState::default`. -/
def empty : FrontierState :=
  { committedEpoch := none, entries := [], committedSet := ∅, uploadEpoch := none
    uploadExpected := 0, uploadReceived := 0, staging := [], receivedBits := []
    uploadSeen := ∅ }

/-- The error of a call that names the wrong epoch. -/
def epochConflict (state : FrontierState) (requested : UInt64) : FrontierError :=
  .epochConflict state.committedEpoch state.uploadEpoch requested

/-- `try_reserve`, as the allocator answers it. -/
def tryReserve (granted : Bool) : Exec FrontierError FrontierState Unit :=
  Exec.check fun _ => if granted then pure () else throw .allocationFailed

/-- What `begin` checks before it reserves anything. -/
def checkBegin (state : FrontierState) (epoch : UInt64) (expected maximum : UInt32) :
    Except FrontierError Unit :=
  if epoch = 0 then throw (.invalidEpoch epoch)
  else if maximum < expected then throw (.countExceeded expected maximum)
  else if state.committedEpoch.any (fun committed => decide (epoch ≤ committed)) ||
      state.uploadEpoch.any (fun uploading => decide (epoch ≤ uploading)) then
    throw (state.epochConflict epoch)
  else pure ()

/-- `FrontierState::begin`, with three reservations: for the handles, for their bits and for the
set of what was seen. -/
def begin (epoch : UInt64) (expected maximum : UInt32) (reserve : Nat → Bool) :
    Exec FrontierError FrontierState Unit := do
  Exec.check fun state => state.checkBegin epoch expected maximum
  tryReserve (reserve 0)
  modify fun state => { state with staging := resized state.staging expected.toNat ⟨0, 0⟩ }
  tryReserve (reserve 1)
  -- the bits and the set of an upload that is open are cleared before the last reservation
  modify fun state =>
    { state with
      receivedBits := List.replicate ((expected.toNat + 63) / 64 * 64) false
      uploadSeen := ∅ }
  tryReserve (reserve 2)
  modify fun state =>
    { state with uploadEpoch := some epoch, uploadExpected := expected, uploadReceived := 0 }

/-- The first handle of a list that is already present or repeated. -/
def firstDuplicate (present : TurfHandle → Bool) :
    List TurfHandle → Std.TreeSet TurfHandle → Option TurfHandle
  | [], _ => none
  | handle :: rest, incoming =>
    if present handle || incoming.contains handle then some handle
    else firstDuplicate present rest (incoming.insert handle)

/-- The cells of a table from an offset on, overwritten by a list. -/
def overwrite {α : Type} (table : List α) (offset : Nat) (values : List α) : List α :=
  table.take offset ++ values ++ table.drop (offset + values.length)

/-- `FrontierState::append`, with one reservation: for the set of the incoming handles.  Where a
`begin` that failed left fewer cells than the upload expects, the code panics at a cell that is
not there. -/
def append (epoch : UInt64) (offset : UInt32) (handles : List TurfHandle) (reserve : Nat → Bool) :
    Exec FrontierError FrontierState UInt32 := do
  let count := UInt32.ofNat handles.length
  Exec.check fun state =>
    if state.uploadEpoch ≠ some epoch then throw (state.epochConflict epoch)
    else if 2 ^ 32 ≤ handles.length then
      throw (.rangeOutOfBounds offset (UInt32.ofNat (2 ^ 32 - 1)) state.uploadExpected)
    else if state.uploadExpected.toNat < offset.toNat + handles.length then
      throw (.rangeOutOfBounds offset count state.uploadExpected)
    else if ((state.receivedBits.drop offset.toNat).take handles.length).any id then
      throw (.rangeAlreadyReceived offset count)
    else pure ()
  tryReserve (reserve 0)
  Exec.check fun state =>
    match firstDuplicate state.uploadSeen.contains handles ∅ with
    | some handle => throw (.duplicateHandle handle)
    | none => pure ()
  modify fun state =>
    { state with
      staging := overwrite state.staging offset.toNat handles
      receivedBits :=
        overwrite state.receivedBits offset.toNat (List.replicate handles.length true)
      uploadSeen := handles.foldl (fun seen handle => seen.insert handle) state.uploadSeen
      uploadReceived := state.uploadReceived + count }
  return count

/-- `FrontierState::pending`. -/
def pending (state : FrontierState) (epoch : UInt64) : Except FrontierError (List TurfHandle) :=
  if state.uploadEpoch ≠ some epoch then throw (state.epochConflict epoch)
  else if state.uploadReceived ≠ state.uploadExpected then
    throw (.incomplete epoch state.uploadExpected state.uploadReceived)
  else pure state.staging

/-- The map with every handle of a list at its position, counted from `start`. -/
def indexFrom (set : Std.TreeMap TurfHandle Nat) (handles : List TurfHandle) (start : Nat) :
    Std.TreeMap TurfHandle Nat :=
  (handles.zipIdx start).foldl (fun set (handle, index) => set.insert handle index) set

/-- `FrontierState::commit_validated`. -/
def commitValidated (state : FrontierState) (epoch : UInt64) : UInt32 × FrontierState :=
  (UInt32.ofNat state.staging.length,
    { state with
      entries := state.staging
      staging := []
      committedEpoch := some epoch
      uploadEpoch := none
      uploadExpected := 0
      uploadReceived := 0
      uploadSeen := ∅
      committedSet := indexFrom ∅ state.staging 0 })

/-- `FrontierState::committed`. -/
def committed (state : FrontierState) : List TurfHandle :=
  state.entries.zipIdx.filterMap fun (handle, index) =>
    if state.committedSet[handle]? = some index then some handle else none

/-- `FrontierState::compact`. -/
def compact (state : FrontierState) : FrontierState :=
  if state.entries.length ≤ state.committedSet.size * 2 then state
  else
    { state with
      entries := state.committed
      committedSet := indexFrom state.committedSet state.committed 0 }

/-- `FrontierState::add`. -/
def add (epoch : UInt64) (handles : List TurfHandle) (maximum : UInt32) :
    Exec FrontierError FrontierState UInt32 := do
  Exec.check fun state =>
    if state.committedEpoch.any fun committed => decide (epoch ≤ committed) then
      throw (state.epochConflict epoch)
    else if maximum.toNat < state.committedSet.size + handles.length then
      throw (.countExceeded (UInt32.ofNatClamp (state.committedSet.size + handles.length)) maximum)
    else
      match firstDuplicate state.committedSet.contains handles ∅ with
      | some handle => throw (.duplicateHandle handle)
      | none => pure ()
  modify compact
  modify fun state =>
    { state with
      entries := state.entries ++ handles
      committedSet := indexFrom state.committedSet handles state.entries.length
      committedEpoch := some epoch }
  return UInt32.ofNatClamp handles.length

/-- The frontier without the handles of a list, before it is compacted. -/
def erased (state : FrontierState) (handles : List TurfHandle) : FrontierState :=
  { state with
    committedSet := handles.foldl (fun set handle => set.erase handle) state.committedSet }

/-- `FrontierState::remove`. -/
def remove (epoch : UInt64) (handles : List TurfHandle) :
    Exec FrontierError FrontierState UInt32 := do
  Exec.check fun state =>
    if state.committedEpoch.any fun committed => decide (epoch ≤ committed) then
      throw (state.epochConflict epoch)
    else pure ()
  let before ← get
  modify fun state => state.erased handles
  modify compact
  let after ← get
  modify fun state => { state with committedEpoch := some epoch }
  return UInt32.ofNat (before.committedSet.size - after.committedSet.size)

/-! ## Accepted calls -/

open Exec

variable {state state' : FrontierState}

/-- The epoch is above the one that is committed or uploaded, if there is one. -/
def Above (epoch : UInt64) (other : Option UInt64) : Prop := ∀ e, other = some e → e < epoch

theorem above_of_not_any {epoch : UInt64} {other : Option UInt64}
    (h : ¬(other.any fun e => decide (epoch ≤ e)) = true) : Above epoch other := by
  intro e he
  subst he
  rw [Option.any_some, decide_eq_true_eq] at h
  exact UInt64.not_le.1 h

theorem not_any_of_above {epoch : UInt64} {other : Option UInt64} (h : Above epoch other) :
    ¬(other.any fun e => decide (epoch ≤ e)) = true := by
  cases other with
  | none => exact Bool.false_ne_true
  | some e =>
    rw [Option.any_some, decide_eq_true_eq]
    exact UInt64.not_le.2 (h e rfl)

/-- The checks of `begin` let an upload of this epoch and size pass. -/
structure Begins (state : FrontierState) (epoch : UInt64) (expected maximum : UInt32) : Prop where
  nonzero : epoch ≠ 0
  fits : expected ≤ maximum
  committed : Above epoch state.committedEpoch
  upload : Above epoch state.uploadEpoch

theorem checkBegin_eq_ok {epoch : UInt64} {expected maximum : UInt32} {u : Unit} :
    state.checkBegin epoch expected maximum = .ok u ↔ state.Begins epoch expected maximum := by
  unfold checkBegin
  constructor
  · intro h
    split at h
    · cases h
    · next hnonzero =>
      split at h
      · cases h
      · next hmaximum =>
        split at h
        · cases h
        · next hepoch =>
          rw [Bool.or_eq_true, not_or] at hepoch
          exact ⟨hnonzero, UInt32.not_lt.1 hmaximum, above_of_not_any hepoch.1,
            above_of_not_any hepoch.2⟩
  · intro h
    rw [if_neg h.nonzero, if_neg (UInt32.not_lt.2 h.fits), if_neg]
    · rfl
    · rw [Bool.or_eq_true, not_or]
      exact ⟨not_any_of_above h.committed, not_any_of_above h.upload⟩

theorem tryReserve_ok {granted : Bool} {u : Unit}
    (h : run (tryReserve granted) state = (.ok u, state')) : granted = true ∧ state' = state := by
  cases granted with
  | false => cases h
  | true =>
    cases h
    exact ⟨rfl, rfl⟩

/-- A reservation that fails leaves the frontier as it was. -/
theorem tryReserve_error {granted : Bool} {error : FrontierError}
    (h : run (tryReserve granted) state = (.error error, state')) :
    granted = false ∧ state' = state := by
  cases granted with
  | false =>
    cases h
    exact ⟨rfl, rfl⟩
  | true => cases h

theorem begin_ok {epoch : UInt64} {expected maximum : UInt32} {reserve : Nat → Bool} {u : Unit}
    (h : run (begin epoch expected maximum reserve) state = (.ok u, state')) :
    state.Begins epoch expected maximum ∧
      state' =
        { state with
          staging := resized state.staging expected.toNat ⟨0, 0⟩
          receivedBits := List.replicate ((expected.toNat + 63) / 64 * 64) false
          uploadSeen := ∅
          uploadEpoch := some epoch
          uploadExpected := expected
          uploadReceived := 0 } := by
  unfold begin at h
  rw [run_bind_eq_ok] at h
  obtain ⟨_, _, hcheck, h⟩ := h
  obtain ⟨hcheck, rfl⟩ := run_check_eq_ok.1 hcheck
  rw [run_bind_eq_ok] at h
  obtain ⟨_, _, hhandles, h⟩ := h
  obtain ⟨-, rfl⟩ := tryReserve_ok hhandles
  rw [run_modify_bind] at h
  rw [run_bind_eq_ok] at h
  obtain ⟨_, _, hbits, h⟩ := h
  obtain ⟨-, rfl⟩ := tryReserve_ok hbits
  rw [run_modify_bind] at h
  rw [run_bind_eq_ok] at h
  obtain ⟨_, _, hseen, h⟩ := h
  obtain ⟨-, rfl⟩ := tryReserve_ok hseen
  cases h
  exact ⟨checkBegin_eq_ok.1 hcheck, rfl⟩

theorem append_ok {epoch : UInt64} {offset count : UInt32} {handles : List TurfHandle}
    {reserve : Nat → Bool}
    (h : run (append epoch offset handles reserve) state = (.ok count, state')) :
    state.uploadEpoch = some epoch ∧ handles.length < 2 ^ 32 ∧
      count = UInt32.ofNat handles.length ∧
      offset.toNat + handles.length ≤ state.uploadExpected.toNat ∧
      ((state.receivedBits.drop offset.toNat).take handles.length).any id = false ∧
      firstDuplicate state.uploadSeen.contains handles ∅ = none ∧
      state' =
        { state with
          staging := overwrite state.staging offset.toNat handles
          receivedBits :=
            overwrite state.receivedBits offset.toNat (List.replicate handles.length true)
          uploadSeen := handles.foldl (fun seen handle => seen.insert handle) state.uploadSeen
          uploadReceived := state.uploadReceived + count } := by
  unfold append at h
  rw [run_bind_eq_ok] at h
  obtain ⟨_, _, hcheck, h⟩ := h
  obtain ⟨hcheck, rfl⟩ := run_check_eq_ok.1 hcheck
  rw [run_bind_eq_ok] at h
  obtain ⟨_, _, hincoming, h⟩ := h
  obtain ⟨-, rfl⟩ := tryReserve_ok hincoming
  rw [run_bind_eq_ok] at h
  obtain ⟨_, _, hduplicate, h⟩ := h
  obtain ⟨hduplicate, rfl⟩ := run_check_eq_ok.1 hduplicate
  rw [run_modify_bind] at h
  cases h
  split at hcheck
  · cases hcheck
  · next hepoch =>
    split at hcheck
    · cases hcheck
    · next hlarge =>
      split at hcheck
      · cases hcheck
      · next hbounds =>
        split at hcheck
        · cases hcheck
        · next hreceived =>
          split at hduplicate
          · cases hduplicate
          · next hnone =>
            exact ⟨not_not.1 hepoch, Nat.not_le.1 hlarge, rfl, Nat.not_lt.1 hbounds,
              Bool.not_eq_true _ ▸ hreceived, hnone, rfl⟩

theorem pending_ok {epoch : UInt64} {handles : List TurfHandle}
    (h : state.pending epoch = .ok handles) :
    state.uploadEpoch = some epoch ∧ state.uploadReceived = state.uploadExpected ∧
      handles = state.staging := by
  unfold FrontierState.pending at h
  split at h
  · cases h
  · next hepoch =>
    split at h
    · cases h
    · next hcomplete =>
      cases h
      exact ⟨not_not.1 hepoch, not_not.1 hcomplete, rfl⟩

theorem add_ok {epoch : UInt64} {handles : List TurfHandle} {maximum count : UInt32}
    (h : run (add epoch handles maximum) state = (.ok count, state')) :
    Above epoch state.committedEpoch ∧
      state.committedSet.size + handles.length ≤ maximum.toNat ∧
      firstDuplicate state.committedSet.contains handles ∅ = none ∧
      count = UInt32.ofNatClamp handles.length ∧
      state' =
        { state.compact with
          entries := state.compact.entries ++ handles
          committedSet :=
            indexFrom state.compact.committedSet handles state.compact.entries.length
          committedEpoch := some epoch } := by
  unfold add at h
  rw [run_bind_eq_ok] at h
  obtain ⟨_, _, hcheck, h⟩ := h
  obtain ⟨hcheck, rfl⟩ := run_check_eq_ok.1 hcheck
  rw [run_modify_bind, run_modify_bind] at h
  cases h
  split at hcheck
  · cases hcheck
  · next hepoch =>
    split at hcheck
    · cases hcheck
    · next hroom =>
      split at hcheck
      · cases hcheck
      · next hduplicate =>
        exact ⟨above_of_not_any hepoch, Nat.not_lt.1 hroom, hduplicate, rfl, rfl⟩

theorem remove_ok {epoch : UInt64} {handles : List TurfHandle} {count : UInt32}
    (h : run (remove epoch handles) state = (.ok count, state')) :
    Above epoch state.committedEpoch ∧
      count = UInt32.ofNat
        (state.committedSet.size - (state.erased handles).compact.committedSet.size) ∧
      state' = { (state.erased handles).compact with committedEpoch := some epoch } := by
  unfold remove at h
  rw [run_bind_eq_ok] at h
  obtain ⟨_, _, hcheck, h⟩ := h
  obtain ⟨hcheck, rfl⟩ := run_check_eq_ok.1 hcheck
  cases h
  split at hcheck
  · cases hcheck
  · next hepoch => exact ⟨above_of_not_any hepoch, rfl, rfl⟩

/-- An upload leaves the committed frontier alone. -/
theorem committed_append {epoch : UInt64} {offset count : UInt32} {handles : List TurfHandle}
    {reserve : Nat → Bool}
    (h : run (append epoch offset handles reserve) state = (.ok count, state')) :
    state'.committed = state.committed := by
  obtain ⟨-, -, -, -, -, -, rfl⟩ := append_ok h
  rfl

/-! ## Rejected calls -/

/-- **A `begin` that is rejected** leaves the frontier alone, unless a reservation after the first
one fails: then the cells have the new size, and after the last one the bits and the set of an
upload that is open are gone too. -/
theorem begin_error {epoch : UInt64} {expected maximum : UInt32} {reserve : Nat → Bool}
    {error : FrontierError}
    (h : run (begin epoch expected maximum reserve) state = (.error error, state')) :
    (state.Begins epoch expected maximum → reserve 0 = false) ∧ state' = state ∨
    state.Begins epoch expected maximum ∧ reserve 0 = true ∧
      (reserve 1 = false ∧
          state' = { state with staging := resized state.staging expected.toNat ⟨0, 0⟩ } ∨
        reserve 1 = true ∧ reserve 2 = false ∧
          state' =
            { state with
              staging := resized state.staging expected.toNat ⟨0, 0⟩
              receivedBits := List.replicate ((expected.toNat + 63) / 64 * 64) false
              uploadSeen := ∅ }) := by
  unfold begin at h
  rw [run_bind_eq_error] at h
  rcases h with hcheck | ⟨_, _, hcheck, h⟩
  · obtain ⟨hcheck, rfl⟩ := run_check_eq_error.1 hcheck
    refine .inl ⟨fun hbegins => ?_, rfl⟩
    rw [(checkBegin_eq_ok (u := ())).2 hbegins] at hcheck
    cases hcheck
  obtain ⟨hcheck, rfl⟩ := run_check_eq_ok.1 hcheck
  rw [run_bind_eq_error] at h
  rcases h with hhandles | ⟨_, _, hhandles, h⟩
  · obtain ⟨hdenied, rfl⟩ := tryReserve_error hhandles
    exact .inl ⟨fun _ => hdenied, rfl⟩
  obtain ⟨hgranted, rfl⟩ := tryReserve_ok hhandles
  refine .inr ⟨checkBegin_eq_ok.1 hcheck, hgranted, ?_⟩
  rw [run_modify_bind] at h
  rw [run_bind_eq_error] at h
  rcases h with hbits | ⟨_, _, hbits, h⟩
  · exact .inl (tryReserve_error hbits)
  obtain ⟨hgranted, rfl⟩ := tryReserve_ok hbits
  rw [run_modify_bind] at h
  rw [run_bind_eq_error] at h
  rcases h with hseen | ⟨_, _, hseen, h⟩
  · exact .inr ⟨hgranted, tryReserve_error hseen⟩
  · cases h

theorem append_error {epoch : UInt64} {offset : UInt32} {handles : List TurfHandle}
    {reserve : Nat → Bool} {error : FrontierError}
    (h : run (append epoch offset handles reserve) state = (.error error, state')) :
    state' = state := by
  unfold append at h
  rw [run_bind_eq_error] at h
  rcases h with hcheck | ⟨_, _, hcheck, h⟩
  · exact (run_check_eq_error.1 hcheck).2
  obtain ⟨-, rfl⟩ := run_check_eq_ok.1 hcheck
  rw [run_bind_eq_error] at h
  rcases h with hincoming | ⟨_, _, hincoming, h⟩
  · exact (tryReserve_error hincoming).2
  obtain ⟨-, rfl⟩ := tryReserve_ok hincoming
  rw [run_bind_eq_error] at h
  rcases h with hduplicate | ⟨_, _, hduplicate, h⟩
  · exact (run_check_eq_error.1 hduplicate).2
  · rw [run_modify_bind] at h
    cases h

theorem add_error {epoch : UInt64} {handles : List TurfHandle} {maximum : UInt32}
    {error : FrontierError}
    (h : run (add epoch handles maximum) state = (.error error, state')) : state' = state := by
  unfold add at h
  rw [run_bind_eq_error] at h
  rcases h with hcheck | ⟨_, _, hcheck, h⟩
  · exact (run_check_eq_error.1 hcheck).2
  · rw [run_modify_bind, run_modify_bind] at h
    cases h

theorem remove_error {epoch : UInt64} {handles : List TurfHandle} {error : FrontierError}
    (h : run (remove epoch handles) state = (.error error, state')) : state' = state := by
  unfold remove at h
  rw [run_bind_eq_error] at h
  rcases h with hcheck | ⟨_, _, hcheck, h⟩
  · exact (run_check_eq_error.1 hcheck).2
  · cases h

end FrontierState

end Dogmos
