import Dogmos.Runs.FrontierSize

/-!
# Calls on the frontier

`FrontierCall` lists what can be asked of a frontier: an upload in three phases,
an addition, a removal and a look at the committed turfs.  Every operation of a
world on its frontier is one of these calls, or is rejected before it comes to it
(`frontier_of_accepted`, `frontier_of_rejected`).

An upload and an edit in place share one committed epoch.  A call that edits in
place compares its epoch with it, and so does the beginning of an upload; the end
of an upload does not.  So the epoch grows, and what was uploaded before an edit
does not come back, exactly as long as nothing is edited while an upload is open:

* `open_upload_above` — an open upload is above the committed epoch;
* `frontier_epochs_grow` — the runs that keep the two ways apart;
* `restored_upload`, `undone_increment` — an edit under an open upload, undone by its end.
-/

namespace Dogmos

variable {F D : Type}

/-- What is asked of a frontier. -/
inductive FrontierCall
  | begin (epoch : UInt64) (expected maximum : UInt32) (reserve : Nat → Bool)
  | append (epoch : UInt64) (offset : UInt32) (handles : List TurfHandle) (reserve : Nat → Bool)
  | commit (epoch : UInt64)
  | add (epoch : UInt64) (handles : List TurfHandle) (maximum : UInt32)
  | remove (epoch : UInt64) (handles : List TurfHandle)
  | committed

namespace FrontierCall

/-- The epoch a call commits. -/
def committing : FrontierCall → Option UInt64
  | commit epoch | add epoch _ _ | remove epoch _ => some epoch
  | _ => none

/-- The upload that is open after a call. -/
def uploading (before : Option UInt64) : FrontierCall → Option UInt64
  | begin epoch _ _ _ => some epoch
  | commit _ => none
  | _ => before

/-- The calls that edit the committed frontier in place. -/
inductive IsEdit : FrontierCall → Prop
  | add (epoch handles maximum) : IsEdit (add epoch handles maximum)
  | remove (epoch handles) : IsEdit (remove epoch handles)

end FrontierCall

/-- What a frontier answers. -/
inductive FrontierAnswer
  | done
  | count (count : UInt32)
  | handles (handles : List TurfHandle)
deriving DecidableEq

namespace FrontierState

variable {state state' : FrontierState}

open Exec

/-- The answer to a call and the frontier it leaves.  A commit asks for the pending handles
first. -/
def call : FrontierCall → Exec FrontierError FrontierState FrontierAnswer
  | .begin epoch expected maximum reserve =>
    (fun _ => .done) <$> begin epoch expected maximum reserve
  | .append epoch offset handles reserve => .count <$> append epoch offset handles reserve
  | .commit epoch => do
    let _ ← Exec.check fun state => state.pending epoch
    let state ← get
    modify fun state => (state.commitValidated epoch).2
    return .count (state.commitValidated epoch).1
  | .add epoch handles maximum => .count <$> add epoch handles maximum
  | .remove epoch handles => .count <$> remove epoch handles
  | .committed => do
    let state ← get
    return .handles state.committed

/-! ## What an accepted call does -/

theorem commit_ok {epoch : UInt64} {answer : FrontierAnswer}
    (h : run (call (.commit epoch)) state = (.ok answer, state')) :
    (∃ handles, state.pending epoch = .ok handles) ∧
      answer = .count (state.commitValidated epoch).1 ∧
      state' = (state.commitValidated epoch).2 := by
  unfold call at h
  rw [run_bind_eq_ok] at h
  obtain ⟨handles, _, hpending, h⟩ := h
  obtain ⟨hpending, rfl⟩ := run_check_eq_ok.1 hpending
  cases h
  exact ⟨⟨handles, hpending⟩, rfl, rfl⟩

/-- Compaction changes how the committed turfs are kept, nothing else. -/
theorem compact_fields (state : FrontierState) :
    state.compact.committedEpoch = state.committedEpoch ∧
      state.compact.uploadEpoch = state.uploadEpoch ∧
      state.compact.uploadExpected = state.uploadExpected ∧
      state.compact.uploadReceived = state.uploadReceived ∧
      state.compact.staging = state.staging ∧ state.compact.receivedBits = state.receivedBits ∧
      state.compact.uploadSeen = state.uploadSeen := by
  unfold compact
  split
  · exact ⟨rfl, rfl, rfl, rfl, rfl, rfl, rfl⟩
  · exact ⟨rfl, rfl, rfl, rfl, rfl, rfl, rfl⟩

/-- An accepted call commits the epoch it names, if it commits one. -/
theorem committedEpoch_call {call : FrontierCall} {answer : FrontierAnswer}
    (h : run (FrontierState.call call) state = (.ok answer, state')) :
    state'.committedEpoch = call.committing.or state.committedEpoch := by
  cases call with
  | begin epoch expected maximum reserve =>
    obtain ⟨_, hbegin, -⟩ := run_map_eq_ok.1 h
    rw [(begin_ok hbegin).2]
    rfl
  | append epoch offset handles reserve =>
    obtain ⟨count, happend, -⟩ := run_map_eq_ok.1 h
    rw [(append_ok happend).2.2.2.2.2.2]
    rfl
  | commit epoch =>
    rw [(commit_ok h).2.2]
    rfl
  | add epoch handles maximum =>
    obtain ⟨count, hadd, -⟩ := run_map_eq_ok.1 h
    rw [(add_ok hadd).2.2.2.2]
    rfl
  | remove epoch handles =>
    obtain ⟨count, hremove, -⟩ := run_map_eq_ok.1 h
    rw [(remove_ok hremove).2.2]
    rfl
  | committed =>
    cases h
    rfl

/-- The upload that is open after an accepted call. -/
theorem uploadEpoch_call {call : FrontierCall} {answer : FrontierAnswer}
    (h : run (FrontierState.call call) state = (.ok answer, state')) :
    state'.uploadEpoch = call.uploading state.uploadEpoch := by
  cases call with
  | begin epoch expected maximum reserve =>
    obtain ⟨_, hbegin, -⟩ := run_map_eq_ok.1 h
    rw [(begin_ok hbegin).2]
    rfl
  | append epoch offset handles reserve =>
    obtain ⟨count, happend, -⟩ := run_map_eq_ok.1 h
    rw [(append_ok happend).2.2.2.2.2.2]
    rfl
  | commit epoch =>
    rw [(commit_ok h).2.2]
    rfl
  | add epoch handles maximum =>
    obtain ⟨count, hadd, -⟩ := run_map_eq_ok.1 h
    rw [(add_ok hadd).2.2.2.2]
    exact state.compact_fields.2.1
  | remove epoch handles =>
    obtain ⟨count, hremove, -⟩ := run_map_eq_ok.1 h
    rw [(remove_ok hremove).2.2]
    exact (state.erased handles).compact_fields.2.1
  | committed =>
    cases h
    rfl

/-- Two frontiers with the same upload. -/
structure SameUpload (state' state : FrontierState) : Prop where
  epoch : state'.uploadEpoch = state.uploadEpoch
  expected : state'.uploadExpected = state.uploadExpected
  received : state'.uploadReceived = state.uploadReceived
  staging : state'.staging = state.staging
  receivedBits : state'.receivedBits = state.receivedBits

theorem SameUpload.commitValidated (h : state'.SameUpload state) (epoch : UInt64) :
    state'.commitValidated epoch = state.commitValidated epoch := by
  unfold FrontierState.commitValidated
  rw [h.staging, h.receivedBits]

theorem SameUpload.pending (h : state'.SameUpload state) {epoch : UInt64}
    {handles : List TurfHandle} (hpending : state.pending epoch = .ok handles) :
    state'.pending epoch = .ok handles := by
  obtain ⟨hepoch, hcomplete, rfl⟩ := pending_ok hpending
  unfold FrontierState.pending
  rw [if_neg (not_not.2 (h.epoch.trans hepoch)), h.received, h.expected,
    if_neg (not_not.2 hcomplete), h.staging]
  rfl

theorem sameUpload_compact (state : FrontierState) : state.compact.SameUpload state := by
  obtain ⟨-, hepoch, hexpected, hreceived, hstaging, hbits, -⟩ := state.compact_fields
  exact ⟨hepoch, hexpected, hreceived, hstaging, hbits⟩

theorem sameUpload_add {epoch : UInt64} {handles : List TurfHandle} {maximum count : UInt32}
    (h : run (add epoch handles maximum) state = (.ok count, state')) : state'.SameUpload state := by
  obtain ⟨hepoch, hexpected, hreceived, hstaging, hbits⟩ := sameUpload_compact state
  rw [(add_ok h).2.2.2.2]
  exact ⟨hepoch, hexpected, hreceived, hstaging, hbits⟩

theorem sameUpload_remove {epoch : UInt64} {handles : List TurfHandle} {count : UInt32}
    (h : run (remove epoch handles) state = (.ok count, state')) : state'.SameUpload state := by
  obtain ⟨hepoch, hexpected, hreceived, hstaging, hbits⟩ :=
    sameUpload_compact (state.erased handles)
  rw [(remove_ok h).2.2]
  exact ⟨hepoch, hexpected, hreceived, hstaging, hbits⟩

/-- The counts fit after every call, accepted or rejected. -/
theorem small_call (call : FrontierCall) : Keeps Small (FrontierState.call call) := by
  cases call with
  | begin epoch expected maximum reserve => exact keeps_map _ (small_begin _ _ _ _)
  | append epoch offset handles reserve => exact keeps_map _ (small_append _ _ _ _)
  | commit epoch =>
    refine keeps_check_bind fun _ => keeps_get_bind fun _ => keeps_bind (keeps_modify ?_) fun _ =>
      keeps_pure _
    intro state h
    exact h.commitValidated epoch
  | add epoch handles maximum => exact keeps_map _ (small_add _ _ _)
  | remove epoch handles => exact keeps_map _ (small_remove _ _)
  | committed => exact keeps_get_bind fun _ => keeps_pure _

/-! ## What a rejected call does -/

/-- Two frontiers that differ in the cells, the bits and the set of an upload at most. -/
structure SameButTables (state' state : FrontierState) : Prop where
  committedEpoch : state'.committedEpoch = state.committedEpoch
  entries : state'.entries = state.entries
  committedSet : state'.committedSet = state.committedSet
  uploadEpoch : state'.uploadEpoch = state.uploadEpoch
  uploadExpected : state'.uploadExpected = state.uploadExpected
  uploadReceived : state'.uploadReceived = state.uploadReceived

theorem SameButTables.refl (state : FrontierState) : state.SameButTables state :=
  ⟨rfl, rfl, rfl, rfl, rfl, rfl⟩

theorem SameButTables.committed (h : state'.SameButTables state) :
    state'.committed = state.committed := by
  unfold FrontierState.committed
  rw [h.entries, h.committedSet]

theorem commit_error {epoch : UInt64} {error : FrontierError}
    (h : run (call (.commit epoch)) state = (.error error, state')) : state' = state := by
  unfold call at h
  rw [run_bind_eq_error] at h
  rcases h with hpending | ⟨_, _, -, h⟩
  · exact (run_check_eq_error.1 hpending).2
  · cases h

/-- **A rejected call** leaves the frontier alone, unless it is a `begin` that fails after its first
reservation. -/
theorem error_call {call : FrontierCall} {error : FrontierError}
    (h : run (FrontierState.call call) state = (.error error, state')) :
    state' = state ∨ ∃ epoch expected maximum reserve,
      call = .begin epoch expected maximum reserve ∧
        run (begin epoch expected maximum reserve) state = (.error error, state') := by
  cases call with
  | begin epoch expected maximum reserve =>
    exact .inr ⟨epoch, expected, maximum, reserve, rfl, run_map_eq_error.1 h⟩
  | append epoch offset handles reserve => exact .inl (append_error (run_map_eq_error.1 h))
  | commit epoch => exact .inl (commit_error h)
  | add epoch handles maximum => exact .inl (add_error (run_map_eq_error.1 h))
  | remove epoch handles => exact .inl (remove_error (run_map_eq_error.1 h))
  | committed => cases h

/-- A rejected call leaves the committed turfs, the epochs and the counts of the upload alone. -/
theorem sameButTables_of_error {call : FrontierCall} {error : FrontierError}
    (h : run (FrontierState.call call) state = (.error error, state')) :
    state'.SameButTables state := by
  rcases error_call h with rfl | ⟨epoch, expected, maximum, reserve, -, hbegin⟩
  · exact .refl _
  · rcases begin_error hbegin with ⟨-, rfl⟩ | ⟨-, -, ⟨-, rfl⟩ | ⟨-, -, rfl⟩⟩
    · exact .refl _
    · exact ⟨rfl, rfl, rfl, rfl, rfl, rfl⟩
    · exact ⟨rfl, rfl, rfl, rfl, rfl, rfl⟩

/-! ## Epochs -/

/-- An open upload is above the committed epoch. -/
def OpenAbove (state : FrontierState) : Prop :=
  ∀ epoch, state.uploadEpoch = some epoch → Above epoch state.committedEpoch

/-- With no edit in place under an open upload, every accepted call commits a greater epoch, if
it commits one, and leaves an open upload above it. -/
theorem OpenAbove.call (hopen : state.OpenAbove) {call : FrontierCall} {answer : FrontierAnswer}
    (h : run (FrontierState.call call) state = (.ok answer, state'))
    (hedit : call.IsEdit → state.uploadEpoch = none) :
    state'.OpenAbove ∧ ∀ epoch, call.committing = some epoch → Above epoch state.committedEpoch := by
  have hcommitted := committedEpoch_call h
  have hupload := uploadEpoch_call h
  have hclosed : call.IsEdit → state'.OpenAbove := by
    intro hcall epoch hepoch
    have hsame : state'.uploadEpoch = state.uploadEpoch := by
      cases hcall with
      | add _ _ _ => exact hupload
      | remove _ _ => exact hupload
    rw [hsame, hedit hcall] at hepoch
    cases hepoch
  cases call with
  | begin epoch expected maximum reserve =>
    refine ⟨fun e he => ?_, fun _ he => by cases he⟩
    obtain ⟨_, hbegin, -⟩ := run_map_eq_ok.1 h
    rw [hupload] at he
    rw [hcommitted]
    cases he
    exact (begin_ok hbegin).1.committed
  | append epoch offset handles reserve =>
    refine ⟨fun e he => ?_, fun _ he => by cases he⟩
    rw [hupload] at he
    rw [hcommitted]
    exact hopen e he
  | commit epoch =>
    refine ⟨fun e he => ?_, fun e he => ?_⟩
    · rw [hupload] at he
      cases he
    · obtain ⟨handles, hpending⟩ := (commit_ok h).1
      cases he
      exact hopen epoch (pending_ok hpending).1
  | add epoch handles maximum =>
    refine ⟨hclosed (.add ..), fun e he => ?_⟩
    obtain ⟨count, hadd, -⟩ := run_map_eq_ok.1 h
    cases he
    exact (add_ok hadd).1
  | remove epoch handles =>
    refine ⟨hclosed (.remove ..), fun e he => ?_⟩
    obtain ⟨count, hremove, -⟩ := run_map_eq_ok.1 h
    cases he
    exact (remove_ok hremove).1
  | committed =>
    cases h
    exact ⟨hopen, fun _ he => by cases he⟩

/-- Everything that is committed or uploaded has come to an epoch. -/
structure Reached (epoch : UInt64) (state : FrontierState) : Prop where
  upload : ∀ e, state.uploadEpoch = some e → epoch ≤ e
  committed : state.uploadEpoch = none → ∃ e, state.committedEpoch = some e ∧ epoch ≤ e

/-- The committed epoch has come to an epoch. -/
def Past (epoch : UInt64) (state : FrontierState) : Prop :=
  ∃ e, state.committedEpoch = some e ∧ epoch ≤ e

theorem SameButTables.openAbove (h : state'.SameButTables state) (hopen : state.OpenAbove) :
    state'.OpenAbove := by
  intro epoch hepoch
  rw [h.committedEpoch]
  exact hopen epoch (h.uploadEpoch.symm.trans hepoch)

theorem SameButTables.reached {epoch : UInt64} (h : state'.SameButTables state)
    (hreached : state.Reached epoch) : state'.Reached epoch := by
  refine ⟨fun e he => hreached.upload e (h.uploadEpoch.symm.trans he), fun hnone => ?_⟩
  rw [h.committedEpoch]
  exact hreached.committed (h.uploadEpoch.symm.trans hnone)

theorem SameButTables.past {epoch : UInt64} (h : state'.SameButTables state)
    (hpast : state.Past epoch) : state'.Past epoch := by
  unfold Past
  rw [h.committedEpoch]
  exact hpast

theorem Past.call {epoch : UInt64} (hpast : state.Past epoch) (hopen : state.OpenAbove)
    {call : FrontierCall} {answer : FrontierAnswer}
    (h : run (FrontierState.call call) state = (.ok answer, state'))
    (hedit : call.IsEdit → state.uploadEpoch = none) : state'.Past epoch := by
  obtain ⟨e, he, hle⟩ := hpast
  unfold Past
  rw [committedEpoch_call h]
  rcases hcommitting : call.committing with _ | next
  · exact ⟨e, he, hle⟩
  · have hlt := (hopen.call h hedit).2 next hcommitting e he
    exact ⟨next, rfl, UInt64.le_trans hle (UInt64.le_of_lt hlt)⟩

theorem Reached.call {epoch : UInt64} (hreached : state.Reached epoch) (hopen : state.OpenAbove)
    {call : FrontierCall} {answer : FrontierAnswer}
    (h : run (FrontierState.call call) state = (.ok answer, state'))
    (hedit : call.IsEdit → state.uploadEpoch = none) : state'.Reached epoch := by
  have hupload := uploadEpoch_call h
  have hkept : state'.uploadEpoch = state.uploadEpoch → state'.Reached epoch := by
    intro hsame
    refine ⟨fun e he => hreached.upload e (hsame.symm.trans he), fun hnone => ?_⟩
    have hpast : state.Past epoch := hreached.committed (hsame.symm.trans hnone)
    exact hpast.call hopen h hedit
  cases call with
  | begin next expected maximum reserve =>
    refine ⟨fun e he => ?_, fun hnone => ?_⟩
    · rw [hupload] at he
      cases he
      obtain ⟨_, hbegin, -⟩ := run_map_eq_ok.1 h
      obtain ⟨-, -, hcommitted, huploading⟩ := (begin_ok hbegin).1
      rcases hcase : state.uploadEpoch with _ | uploading
      · obtain ⟨c, hc, hle⟩ := hreached.committed hcase
        exact UInt64.le_trans hle (UInt64.le_of_lt (hcommitted c hc))
      · exact UInt64.le_trans (hreached.upload _ hcase) (UInt64.le_of_lt (huploading _ hcase))
    · rw [hupload] at hnone
      cases hnone
  | append next offset handles reserve => exact hkept hupload
  | commit next =>
    refine ⟨fun e he => ?_, fun _ => ?_⟩
    · rw [hupload] at he
      cases he
    · obtain ⟨⟨handles, hpending⟩, -, rfl⟩ := commit_ok h
      exact ⟨next, rfl, hreached.upload _ (pending_ok hpending).1⟩
  | add next handles maximum => exact hkept hupload
  | remove next handles => exact hkept hupload
  | committed =>
    cases h
    exact hreached

end FrontierState

/-! ## The operations of a world -/

/-- The call an operation of a world makes on its frontier. -/
def Op.frontierCall (w : DogmosWorld F) : Op F D → Option FrontierCall
  | .beginFrontier epoch expected reserve => some (.begin epoch expected w.turfSlotCount reserve)
  | .appendFrontier epoch offset handles reserve => some (.append epoch offset handles reserve)
  | .commitFrontier epoch => some (.commit epoch)
  | .addFrontier epoch handles => some (.add epoch handles w.turfSlotCount)
  | .removeFrontier epoch handles => some (.remove epoch handles)
  | _ => none

/-- The operations that commit an epoch of the frontier. -/
inductive Op.IsUpdate : Op F D → Prop
  | commitFrontier (epoch) : IsUpdate (.commitFrontier epoch)
  | addFrontier (epoch handles) : IsUpdate (.addFrontier epoch handles)
  | removeFrontier (epoch handles) : IsUpdate (.removeFrontier epoch handles)

/-- The updates in place. -/
inductive Op.IsIncrement : Op F D → Prop
  | addFrontier (epoch handles) : IsIncrement (.addFrontier epoch handles)
  | removeFrontier (epoch handles) : IsIncrement (.removeFrontier epoch handles)

namespace DogmosWorld

open Exec

/-- What an operation on the frontier leaves when it fails: everything as it was, or the frontier
as a call left it that failed. -/
def Refused {α : Type} (call : Exec FrontierError FrontierState α) (w v : DogmosWorld F) : Prop :=
  v = w ∨ ∃ error, run call w.frontier = (.error error, v.frontier)

theorem Refused.map {α β : Type} {call : Exec FrontierError FrontierState α} {w v : DogmosWorld F}
    (h : Refused call w v) (f : α → β) : Refused (f <$> call) w v := by
  rcases h with hsame | ⟨error, hrun⟩
  · exact .inl hsame
  · exact .inr ⟨error, run_map_eq_error.2 hrun⟩

theorem triple_onFrontier {α : Type} {call : Exec FrontierError FrontierState α}
    (w : DogmosWorld F) :
    Triple (fun v => v = w) (onFrontier call)
      (fun value v => run call w.frontier = (.ok value, v.frontier) ∧
        v = { w with frontier := v.frontier })
      fun _ => Refused call w := by
  rintro v rfl
  unfold onFrontier
  rw [run_embed]
  unfold Refused
  rcases run call v.frontier with ⟨error | value, frontier⟩
  · exact .inr ⟨error, rfl⟩
  · exact ⟨rfl, rfl⟩

theorem triple_discard {α : Type} {P : DogmosWorld F → Prop} {m : WorldM F α}
    {Q : α → DogmosWorld F → Prop} {E : WorldError → DogmosWorld F → Prop} (h : Triple P m Q E) :
    Triple P (discard m) (fun _ v => ∃ a, Q a v) E :=
  triple_bind h fun a => triple_pure fun _ ha => ⟨a, ha⟩

theorem triple_rejectActiveStage (w : DogmosWorld F) (operation : String) :
    Triple (fun v => v = w) (rejectActiveStage operation)
      (fun _ v => v = w ∧ w.stageCursor = none) fun _ v => v = w := by
  rintro v rfl
  unfold rejectActiveStage
  rw [run_check]
  rcases hcursor : v.stageCursor with _ | cursor
  · exact ⟨rfl, rfl⟩
  · rfl

theorem triple_requireTurfHandles (w : DogmosWorld F) (handles : List TurfHandle) :
    Triple (fun v => v = w) (requireTurfHandles handles)
      (fun _ v => v = w ∧ ∀ handle ∈ handles, ∃ record, w.requireTurfHandle handle = .ok record)
      fun _ v => v = w := by
  unfold requireTurfHandles
  induction handles with
  | nil => exact triple_pure fun v hv => ⟨hv, fun _ hmem => absurd hmem List.not_mem_nil⟩
  | cons handle rest ih =>
    refine triple_bind (Q := fun _ v => v = w ∧ ∃ record, w.requireTurfHandle handle = .ok record)
      ?_ fun _ v hv => ?_
    · refine triple_check_bind (fun record => triple_pure fun v hv => ?_) fun _ _ hv _ => hv
      exact ⟨hv.1, record, hv.1 ▸ hv.2⟩
    · refine triple_mono ih (fun _ hu => hu) (fun _ u hu => ⟨hu.1, ?_⟩) (fun _ _ hu => hu) v hv.1
      intro other hother
      rcases List.mem_cons.1 hother with rfl | hother
      · exact hv.2
      · exact hu.2 other hother

section Accepted

variable [FloatFormat F] [FloatFormat D] [FloatCast F D] {w : DogmosWorld F} {op : Op F D}

/-- The world accepts an operation. -/
def Accepted (w : DogmosWorld F) (op : Op F D) : Prop := (exec op).result w = .ok ()

/-- What an operation on the frontier does: an accepted one makes its call, a rejected one makes
a call that is rejected, or none. -/
theorem triple_exec_frontier {call : FrontierCall} (hop : op.frontierCall w = some call) :
    Triple (fun v => v = w) (exec op)
      (fun _ v => ∃ answer, run (FrontierState.call call) w.frontier = (.ok answer, v.frontier) ∧
        v = { w with frontier := v.frontier })
      fun _ => Refused (FrontierState.call call) w := by
  have hactive : ∀ operation, Triple (fun v => v = w) (rejectActiveStage operation)
      (fun _ v => v = w) fun _ => Refused (FrontierState.call call) w := fun operation =>
    triple_mono (triple_rejectActiveStage w operation) (fun _ hv => hv) (fun _ _ hv => hv.1)
      fun _ _ hv => .inl hv
  cases op with
  | beginFrontier epoch expected reserve =>
    cases hop
    refine triple_bind (hactive _) fun _ => triple_get_bind ?_
    rintro v rfl
    refine triple_mono (triple_onFrontier v) (fun _ hu => hu) (fun _ u hu => ?_)
      fun _ u hu => hu.map _
    exact ⟨.done, run_map_eq_ok.2 ⟨_, hu.1, rfl⟩, hu.2⟩
  | appendFrontier epoch offset handles reserve =>
    cases hop
    refine triple_mono (triple_discard (triple_onFrontier w)) (fun v hv => hv) ?_
      fun _ u hu => hu.map _
    rintro ⟨⟩ v ⟨count, happend, hv⟩
    exact ⟨.count count, run_map_eq_ok.2 ⟨count, happend, rfl⟩, hv⟩
  | commitFrontier epoch =>
    cases hop
    refine triple_mono (triple_discard (Q := fun _ v => ∃ handles,
      w.frontier.pending epoch = .ok handles ∧
        v = { w with frontier := (w.frontier.commitValidated epoch).2 })
      (triple_bind (hactive _) fun _ => ?_)) (fun v hv => hv) ?_ fun _ _ hv => hv
    · refine triple_check_bind (fun handles => ?_) fun v _ hv _ => .inl hv
      rintro v ⟨rfl, hpending⟩
      rcases hok : v.frontier.pending epoch with error | found
      · rw [hok] at hpending
        cases hpending
      · refine triple_bind (triple_mono (triple_requireTurfHandles v handles) (fun _ hu => hu)
          (fun _ _ hu => hu.1) fun _ _ hu => .inl hu) (fun _ => triple_get_bind ?_) v rfl
        rintro u rfl
        refine triple_modify_bind (triple_pure ?_)
        rintro x ⟨y, rfl, rfl⟩
        exact ⟨found, rfl, rfl⟩
    · rintro ⟨⟩ v ⟨count, handles, hpending, rfl⟩
      refine ⟨.count (w.frontier.commitValidated epoch).1, ?_, rfl⟩
      unfold FrontierState.call
      rw [run_bind, run_check, hpending]
      rfl
  | addFrontier epoch handles =>
    cases hop
    have hadded : Triple (fun v => v = w) (addFrontier epoch handles)
        (fun count v =>
          run (FrontierState.add epoch handles w.turfSlotCount) w.frontier = (.ok count, v.frontier) ∧
            v = { w with frontier := v.frontier })
        fun _ => Refused (FrontierState.call (.add epoch handles w.turfSlotCount)) w := by
      refine triple_bind (hactive _) fun _ => triple_bind (triple_mono
        (triple_requireTurfHandles w handles) (fun _ hv => hv) (fun _ _ hv => hv.1)
          fun _ _ hv => .inl hv) fun _ => triple_get_bind ?_
      rintro v rfl
      exact triple_mono (triple_onFrontier v) (fun _ hu => hu) (fun _ _ hu => hu)
        fun _ u hu => hu.map _
    refine triple_mono (triple_discard hadded) (fun v hv => hv) ?_ fun _ _ hu => hu
    rintro ⟨⟩ v ⟨count, hadd, hv⟩
    exact ⟨.count count, run_map_eq_ok.2 ⟨count, hadd, rfl⟩, hv⟩
  | removeFrontier epoch handles =>
    cases hop
    have hremoved : Triple (fun v => v = w) (removeFrontier epoch handles)
        (fun count v =>
          run (FrontierState.remove epoch handles) w.frontier = (.ok count, v.frontier) ∧
            v = { w with frontier := v.frontier })
        fun _ => Refused (FrontierState.call (.remove epoch handles)) w := by
      refine triple_bind (hactive _) fun _ => ?_
      exact triple_mono (triple_onFrontier w) (fun _ hu => hu) (fun _ _ hu => hu)
        fun _ u hu => hu.map _
    refine triple_mono (triple_discard hremoved) (fun v hv => hv) ?_ fun _ _ hu => hu
    rintro ⟨⟩ v ⟨count, hremove, hv⟩
    exact ⟨.count count, run_map_eq_ok.2 ⟨count, hremove, rfl⟩, hv⟩
  | _ => cases hop

theorem frontier_of_accepted {call : FrontierCall} (hop : op.frontierCall w = some call)
    (h : Accepted w op) :
    ∃ answer, run (FrontierState.call call) w.frontier = (.ok answer, (step w op).frontier) ∧
      step w op = { w with frontier := (step w op).frontier } :=
  (triple_exec_frontier hop).of_ok rfl h

/-- An increment of the frontier is accepted only while no upload is open. -/
def KeepsApart (w : DogmosWorld F) (op : Op F D) : Prop :=
  op.IsIncrement → Accepted w op → w.frontier.uploadEpoch = none

theorem frontier_of_rejected {call : FrontierCall} (hop : op.frontierCall w = some call)
    (h : ¬Accepted w op) :
    (step w op).frontier = w.frontier ∨
      ∃ error, run (FrontierState.call call) w.frontier = (.error error, (step w op).frontier) := by
  have hrun := triple_exec_frontier hop w rfl
  unfold Accepted Exec.result at h
  unfold DogmosWorld.step Exec.final
  rcases hexec : run (exec op) w with ⟨error | value, v⟩
  · rw [hexec] at hrun
    rcases hrun with hsame | hrejected
    · exact .inl (congrArg DogmosWorld.frontier hsame)
    · exact .inr hrejected
  · rw [hexec] at h
    exact absurd rfl h

/-- An operation accepted as a call, apart from open uploads, or one that leaves everything but
the tables of an upload alone. -/
theorem frontier_step_cases (hC : KeepsApart w op) :
    (step w op).frontier.SameButTables w.frontier ∧ ¬(op.IsUpdate ∧ Accepted w op) ∨
    ∃ call answer, op.frontierCall w = some call ∧ Accepted w op ∧
      run (FrontierState.call call) w.frontier = (.ok answer, (step w op).frontier) ∧
        (call.IsEdit → w.frontier.uploadEpoch = none) := by
  rcases hcall : op.frontierCall w with _ | call
  · refine .inl ⟨?_, fun hop => ?_⟩
    · rw [frontier_step fun hop => by cases hop <;> cases hcall]
      exact .refl _
    · obtain ⟨hop, -⟩ := hop
      cases hop <;> cases hcall
  · by_cases haccepted : Accepted w op
    · obtain ⟨answer, hok, hstep⟩ := frontier_of_accepted hcall haccepted
      refine .inr ⟨call, answer, rfl, haccepted, hok, fun hedit => hC ?_ haccepted⟩
      cases op with
      | addFrontier epoch handles => exact .addFrontier _ _
      | removeFrontier epoch handles => exact .removeFrontier _ _
      | _ => cases hcall <;> cases hedit
    · refine .inl ⟨?_, fun hop => haccepted hop.2⟩
      rcases frontier_of_rejected hcall haccepted with hsame | ⟨error, hrejected⟩
      · rw [hsame]
        exact .refl _
      · exact FrontierState.sameButTables_of_error hrejected

omit [FloatFormat F] [FloatFormat D] [FloatCast F D] in
/-- The committing calls are those of the updates. -/
theorem isUpdate_iff {call : FrontierCall} (hcall : op.frontierCall w = some call) :
    op.IsUpdate ↔ ∃ epoch, call.committing = some epoch := by
  cases op with
  | beginFrontier epoch expected reserve =>
    cases hcall
    exact ⟨fun h => (by cases h), fun ⟨_, h⟩ => (by cases h)⟩
  | appendFrontier epoch offset handles reserve =>
    cases hcall
    exact ⟨fun h => (by cases h), fun ⟨_, h⟩ => (by cases h)⟩
  | commitFrontier epoch =>
    cases hcall
    exact ⟨fun _ => ⟨epoch, rfl⟩, fun _ => .commitFrontier epoch⟩
  | addFrontier epoch handles =>
    cases hcall
    exact ⟨fun _ => ⟨epoch, rfl⟩, fun _ => .addFrontier epoch handles⟩
  | removeFrontier epoch handles =>
    cases hcall
    exact ⟨fun _ => ⟨epoch, rfl⟩, fun _ => .removeFrontier epoch handles⟩
  | _ => cases hcall

theorem openAbove_step (hopen : w.frontier.OpenAbove) (hC : KeepsApart w op) :
    (step w op).frontier.OpenAbove := by
  rcases frontier_step_cases hC with ⟨hsame, -⟩ | ⟨call, answer, -, -, hok, hedit⟩
  · exact hsame.openAbove hopen
  · exact (hopen.call hok hedit).1

/-- **An open upload is above the committed epoch** in every run that keeps increments apart. -/
theorem open_upload_above (h : ReachableWhere (D := D) KeepsApart w) : w.frontier.OpenAbove := by
  refine reachableWhere_induct (I := fun w => w.frontier.OpenAbove) ?_
    (fun w op _ hC hopen => openAbove_step hopen hC) h
  rintro w ⟨_, _, _, _, _, rfl⟩ epoch hepoch
  cases hepoch

/-- The states of the runs from a world whose increments come while no upload is open. -/
abbrev ReachedFrom (w v : DogmosWorld F) : Prop :=
  System.ReachableWhere (fun u => u = w) (step (D := D)) KeepsApart v

theorem ReachedFrom.reached {v : DogmosWorld F} {epoch : UInt64} (h : ReachedFrom (D := D) w v)
    (hopen : w.frontier.OpenAbove) (hreached : w.frontier.Reached epoch) :
    v.frontier.OpenAbove ∧ v.frontier.Reached epoch := by
  refine System.ReachableWhere.induct
    (I := fun v : DogmosWorld F => v.frontier.OpenAbove ∧ v.frontier.Reached epoch) ?_ ?_ h
  · rintro v rfl
    exact ⟨hopen, hreached⟩
  · rintro v op - hC ⟨hopen, hreached⟩
    refine ⟨openAbove_step hopen hC, ?_⟩
    rcases frontier_step_cases hC with ⟨hsame, -⟩ | ⟨call, answer, -, -, hok, hedit⟩
    · exact hsame.reached hreached
    · exact hreached.call hopen hok hedit

theorem ReachedFrom.past {v : DogmosWorld F} {epoch : UInt64} (h : ReachedFrom (D := D) w v)
    (hopen : w.frontier.OpenAbove) (hpast : w.frontier.Past epoch) :
    v.frontier.OpenAbove ∧ v.frontier.Past epoch := by
  refine System.ReachableWhere.induct
    (I := fun v : DogmosWorld F => v.frontier.OpenAbove ∧ v.frontier.Past epoch) ?_ ?_ h
  · rintro v rfl
    exact ⟨hopen, hpast⟩
  · rintro v op - hC ⟨hopen, hpast⟩
    refine ⟨openAbove_step hopen hC, ?_⟩
    rcases frontier_step_cases hC with ⟨hsame, -⟩ | ⟨call, answer, -, -, hok, hedit⟩
    · exact hsame.past hpast
    · exact hpast.call hopen hok hedit

/-- Two worlds that agree in everything but what is committed on their frontiers. -/
def SameButCommitted (epoch : UInt64) (w v : DogmosWorld F) : Prop :=
  ∃ frontier, v = { w with frontier } ∧ frontier.SameUpload w.frontier ∧
    frontier.pending epoch = w.frontier.pending epoch

omit [FloatFormat F] in
/-- What a commit does depends on the upload only. -/
theorem sim_commitFrontier (epoch : UInt64) :
    Sim (SameButCommitted epoch) (commitFrontier (F := F) epoch) (commitFrontier epoch) := by
  refine sim_bind (sim_check fun w v hv => ?_) fun _ => ?_
  · obtain ⟨frontier, rfl, -⟩ := hv
    rfl
  refine sim_bind (sim_check fun w v hv => ?_) fun pending => ?_
  · obtain ⟨frontier, rfl, -, hpending⟩ := hv
    dsimp only
    rw [hpending]
  refine sim_bind (sim_forM fun handle _ => sim_bind (sim_check fun w v hv => ?_)
    fun _ => sim_pure _) fun _ => ?_
  · obtain ⟨frontier, rfl, -⟩ := hv
    rfl
  refine sim_get_bind fun w v hv => ?_
  have hcommit : (v.frontier.commitValidated epoch) = w.frontier.commitValidated epoch := by
    obtain ⟨frontier, rfl, hsame, -⟩ := hv
    exact hsame.commitValidated epoch
  rw [hcommit]
  refine sim_bind (sim_modify fun w v hv => ?_) fun _ => sim_pure _
  obtain ⟨frontier, rfl, hsame, -⟩ := hv
  dsimp only
  rw [hsame.commitValidated]
  exact ⟨_, rfl, ⟨rfl, rfl, rfl, rfl, rfl⟩, rfl⟩

/-- **An upload survives an increment**: what could be committed before an increment can be
committed after it, with an older epoch or not, and undoes it. -/
theorem restored_upload {epoch : UInt64} (hcommit : Accepted w (.commitFrontier epoch : Op F D))
    (hop : op.IsIncrement) (haccepted : Accepted w op) :
    Accepted (step w op) (.commitFrontier epoch : Op F D) ∧
      (step (step w op) (.commitFrontier epoch : Op F D)).frontier.committedEpoch = some epoch ∧
      (step (step w op) (.commitFrontier epoch : Op F D)).frontier.committed =
        (step w (.commitFrontier epoch : Op F D)).frontier.committed := by
  obtain ⟨answer, hok, hstep⟩ := frontier_of_accepted rfl hcommit
  obtain ⟨⟨handles, hpending⟩, -, hcommitted⟩ := FrontierState.commit_ok hok
  have hsame : SameButCommitted epoch w (step w op) := by
    cases hop with
    | addFrontier next handles =>
      obtain ⟨answer, hok, hstep⟩ := frontier_of_accepted rfl haccepted
      obtain ⟨count, hadd, -⟩ := run_map_eq_ok.1 hok
      have hupload := FrontierState.sameUpload_add hadd
      exact ⟨_, hstep, hupload, (hupload.pending hpending).trans hpending.symm⟩
    | removeFrontier next handles =>
      obtain ⟨answer, hok, hstep⟩ := frontier_of_accepted rfl haccepted
      obtain ⟨count, hremove, -⟩ := run_map_eq_ok.1 hok
      have hupload := FrontierState.sameUpload_remove hremove
      exact ⟨_, hstep, hupload, (hupload.pending hpending).trans hpending.symm⟩
  have hagain : Accepted (step w op) (.commitFrontier epoch : Op F D) := by
    refine Eq.trans ?_ hcommit
    exact ((sim_bind (sim_commitFrontier epoch) fun _ => sim_pure _) w _ hsame).1.symm
  refine ⟨hagain, ?_⟩
  obtain ⟨answer', hok', hstep'⟩ := frontier_of_accepted rfl hagain
  obtain ⟨-, -, hcommitted'⟩ := FrontierState.commit_ok hok'
  obtain ⟨other, hother, hupload, -⟩ := hsame
  have hfrontier : (step w op).frontier = other := congrArg DogmosWorld.frontier hother
  rw [hfrontier, hupload.commitValidated] at hcommitted'
  rw [hcommitted', hcommitted]
  exact ⟨rfl, rfl⟩

end Accepted

/-! ## Runs that keep uploads and increments apart -/

section Epochs

variable [FloatFormat F] [FloatFormat D] [FloatCast F D]

/-- The later epoch is there and above the earlier one, if there is one. -/
def EpochLt (earlier later : Option UInt64) : Prop :=
  ∃ epoch, later = some epoch ∧ FrontierState.Above epoch earlier

/-- **The committed epoch grows** with every accepted update and stays with everything else, and
an upload that began before an increment is not committed after it, in every run whose increments
come while no upload is open.  An increment that comes while an upload could be committed is
undone by that commit. -/
theorem frontier_epochs_grow :
    (∀ (w : DogmosWorld F) (op : Op F D), ReachableWhere KeepsApart w → KeepsApart w op →
      (op.IsUpdate → Accepted w op →
        EpochLt w.frontier.committedEpoch (step w op).frontier.committedEpoch) ∧
      (¬(op.IsUpdate ∧ Accepted w op) →
        (step w op).frontier.committedEpoch = w.frontier.committedEpoch)) ∧
    (∀ (w v u : DogmosWorld F) (epoch : UInt64) (expected : UInt32) (reserve : Nat → Bool)
        (op : Op F D),
      ReachableWhere (D := D) KeepsApart w →
      Accepted w (.beginFrontier epoch expected reserve : Op F D) →
      ReachedFrom (D := D) (step w (.beginFrontier epoch expected reserve : Op F D)) v →
      op.IsIncrement → KeepsApart v op → Accepted v op → ReachedFrom (D := D) (step v op) u →
        ¬Accepted u (.commitFrontier epoch : Op F D)) ∧
    ∀ (w : DogmosWorld F) (epoch : UInt64) (op : Op F D), op.IsIncrement → Accepted w op →
      Accepted w (.commitFrontier epoch : Op F D) →
        Accepted (step w op) (.commitFrontier epoch : Op F D) ∧
        (step (step w op) (.commitFrontier epoch : Op F D)).frontier.committedEpoch = some epoch ∧
        (step (step w op) (.commitFrontier epoch : Op F D)).frontier.committed =
          (step w (.commitFrontier epoch : Op F D)).frontier.committed := by
  refine ⟨fun w op hw hC => ?_, fun w v u epoch expected reserve op hw hbegin hv hop hC haccepted hu => ?_,
    fun w epoch op hop haccepted hcommit => restored_upload hcommit hop haccepted⟩
  · have hopen := open_upload_above hw
    rcases frontier_step_cases hC with ⟨hsame, hnot⟩ | ⟨call, answer, hcall, haccepted, hok, hedit⟩
    · exact ⟨fun hop h => absurd ⟨hop, h⟩ hnot, fun _ => hsame.committedEpoch⟩
    · have hepoch := FrontierState.committedEpoch_call hok
      refine ⟨fun hop _ => ?_, fun hnot => ?_⟩
      · obtain ⟨epoch, hcommitting⟩ := (isUpdate_iff hcall).1 hop
        rw [hcommitting] at hepoch
        exact ⟨epoch, hepoch, (hopen.call hok hedit).2 epoch hcommitting⟩
      · rcases hcommitting : call.committing with _ | epoch
        · rw [hepoch, hcommitting]
          rfl
        · exact absurd ⟨(isUpdate_iff hcall).2 ⟨epoch, hcommitting⟩, haccepted⟩ hnot
  · have hopen := open_upload_above hw
    have hstart : KeepsApart w (.beginFrontier epoch expected reserve : Op F D) :=
      fun h => by cases h
    have hreached :
        (step w (.beginFrontier epoch expected reserve : Op F D)).frontier.Reached epoch := by
      obtain ⟨answer, hok, -⟩ := frontier_of_accepted rfl hbegin
      have hupload := FrontierState.uploadEpoch_call hok
      refine ⟨fun e he => ?_, fun hnone => ?_⟩
      · cases hupload.symm.trans he
        exact UInt64.le_refl _
      · cases hupload.symm.trans hnone
    obtain ⟨hopenv, hreachedv⟩ := hv.reached (openAbove_step hopen hstart) hreached
    have hpast : v.frontier.Past epoch := hreachedv.committed (hC hop haccepted)
    have hpast' : (step v op).frontier.Past epoch := by
      rcases frontier_step_cases hC with ⟨hsame, -⟩ | ⟨call, answer, -, -, hok, hedit⟩
      · exact hsame.past hpast
      · exact hpast.call hopenv hok hedit
    obtain ⟨hopenu, e, he, hle⟩ := hu.past (openAbove_step hopenv hC) hpast'
    intro hcommit
    obtain ⟨answer, hok, -⟩ := frontier_of_accepted rfl hcommit
    obtain ⟨handles, hpending⟩ := (FrontierState.commit_ok hok).1
    have hlt := hopenu epoch (FrontierState.pending_ok hpending).1 e he
    exact UInt64.lt_irrefl _ (UInt64.lt_of_le_of_lt hle hlt)

end Epochs

/-! ## An increment that is undone -/

section Undone

/-- Two turfs. -/
def twoTurfs : DogmosWorld F32 :=
  step (newWithCapacities 0 0 100000 4 4)
    (.applyTurfLifecycle [.register ⟨0, 1⟩ none, .register ⟨1, 1⟩ none] : Op F32 F64)

/-- Two turfs, the first of them on the frontier. -/
def oneOfTwo : DogmosWorld F32 :=
  System.run (step (D := F64)) twoTurfs
    [.beginFrontier 1 1 enoughMemory, .appendFrontier 1 0 [⟨0, 1⟩] enoughMemory, .commitFrontier 1]

/-- An upload that is complete, and an increment that comes before it is committed. -/
def uploadedTwo : DogmosWorld F32 :=
  System.run (step (D := F64)) oneOfTwo
    [.beginFrontier 2 1 enoughMemory, .appendFrontier 2 0 [⟨0, 1⟩] enoughMemory]

theorem accepted_of_isOk {w : DogmosWorld F32} {op : Op F32 F64}
    (h : ((exec op).result w).toBool = true) : Accepted w op := by
  unfold Accepted
  rcases hresult : (exec op).result w with error | value
  · rw [hresult] at h
    cases h
  · rfl

theorem frontier_epochs_grow_oneOfTwo :
    EpochLt oneOfTwo.frontier.committedEpoch
        (step oneOfTwo (.addFrontier 2 [⟨1, 1⟩] : Op F32 F64)).frontier.committedEpoch ∧
      ¬Accepted (step oneOfTwo (.addFrontier 2 [⟨1, 1⟩] : Op F32 F64))
        (.commitFrontier 1 : Op F32 F64) ∧
      (step (step uploadedTwo (.addFrontier 3 [⟨1, 1⟩] : Op F32 F64))
        (.commitFrontier 2 : Op F32 F64)).frontier.committedEpoch = some 2 := by
  have hapart : ∀ (w : DogmosWorld F32) (op : Op F32 F64), ¬op.IsIncrement → KeepsApart w op :=
    fun w op hop h => absurd h hop
  have hclosed : oneOfTwo.frontier.uploadEpoch = none := by decide +kernel
  have hadd : KeepsApart oneOfTwo (.addFrontier 2 [⟨1, 1⟩] : Op F32 F64) := fun _ _ => hclosed
  have haccepted : Accepted oneOfTwo (.addFrontier 2 [⟨1, 1⟩] : Op F32 F64) :=
    accepted_of_isOk (by decide +kernel)
  have hregistered : ReachableWhere (D := F64) KeepsApart twoTurfs :=
    (System.ReachableWhere.start ⟨0, 0, 100000, 4, 4, rfl⟩).next
      (.applyTurfLifecycle [.register ⟨0, 1⟩ none, .register ⟨1, 1⟩ none])
      (hapart _ _ fun h => by cases h)
  have hbegun := hregistered.next (.beginFrontier 1 1 enoughMemory) (hapart _ _ fun h => by cases h)
  have happended := hbegun.next (.appendFrontier 1 0 [⟨0, 1⟩] enoughMemory)
    (hapart _ _ fun h => by cases h)
  have hcommitted := happended.next (.commitFrontier 1) (hapart _ _ fun h => by cases h)
  have hone : ReachableWhere (D := F64) KeepsApart oneOfTwo := hcommitted
  have hstart : ReachedFrom (D := F64)
      (step twoTurfs (.beginFrontier 1 1 enoughMemory : Op F32 F64))
      (step twoTurfs (.beginFrontier 1 1 enoughMemory : Op F32 F64)) := .start rfl
  have hstarted := hstart.next (.appendFrontier 1 0 [⟨0, 1⟩] enoughMemory)
    (hapart _ _ fun h => by cases h)
  have hended := hstarted.next (.commitFrontier 1) (hapart _ _ fun h => by cases h)
  have hfrom : ReachedFrom (D := F64)
      (step twoTurfs (.beginFrontier 1 1 enoughMemory : Op F32 F64)) oneOfTwo :=
    hended
  refine ⟨?_, ?_, ?_⟩
  · exact (frontier_epochs_grow.1 _ _ hone hadd).1 (.addFrontier ..) haccepted
  · exact frontier_epochs_grow.2.1 _ oneOfTwo _ 1 1 enoughMemory _ hregistered
      (accepted_of_isOk (by decide +kernel)) hfrom (.addFrontier ..) hadd haccepted (.start rfl)
  · exact (frontier_epochs_grow.2.2 uploadedTwo 2 _ (.addFrontier ..)
      (accepted_of_isOk (by decide +kernel)) (accepted_of_isOk (by decide +kernel))).2.1

/-- **An increment is undone**: an upload that began before the increment replaces the frontier
with its older contents, and the committed epoch falls back to that of the upload. -/
theorem undone_increment : ∃ w : DogmosWorld F32, Reachable (D := F64) w ∧
    Accepted w (.beginFrontier 2 1 enoughMemory : Op F32 F64) ∧ ∃ v u : DogmosWorld F32,
      v = System.run (step (D := F64)) w
        [.beginFrontier 2 1 enoughMemory, .appendFrontier 2 0 [⟨0, 1⟩] enoughMemory] ∧
      Accepted v (.addFrontier 3 [⟨1, 1⟩] : Op F32 F64) ∧
      u = step v (.addFrontier 3 [⟨1, 1⟩] : Op F32 F64) ∧
      u.frontier.committedEpoch = some 3 ∧ u.frontier.committed = [⟨0, 1⟩, ⟨1, 1⟩] ∧
      Accepted u (.commitFrontier 2 : Op F32 F64) ∧
      (step u (.commitFrontier 2 : Op F32 F64)).frontier.committedEpoch = some 2 ∧
      (step u (.commitFrontier 2 : Op F32 F64)).frontier.committed = [⟨0, 1⟩] := by
  refine ⟨oneOfTwo, .run (.next _ (.start ⟨0, 0, 100000, 4, 4, rfl⟩) trivial) _,
    accepted_of_isOk (by decide +kernel), _, _, rfl, accepted_of_isOk (by decide +kernel), rfl,
    by decide +kernel, by decide +kernel, accepted_of_isOk (by decide +kernel),
    by decide +kernel, by decide +kernel⟩

end Undone

end DogmosWorld

end Dogmos
