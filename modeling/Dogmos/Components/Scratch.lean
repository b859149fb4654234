import Dogmos.Components.Touches
import Dogmos.Components.Kernels

/-!
# The scratch of a component stage

Between two units of a component stage, its scratch holds the component that is discovered,
captured, computed or published.  The transaction in it was prepared for as many entries as the
frontier has turfs, and no component has more turfs than were taken from the frontier so far.

* `Kept` — scratch that can be cleared and used again, whatever it was doing.
* `Ready` — what holds between two units; each unit keeps it (`Ready.visit`, `Ready.capture`,
  `Ready.withComputation`, `Ready.finished`, `Ready.retired`, `Ready.published`).
* `ready_start` — a stage starts with such scratch.
-/

namespace Dogmos

variable {F D : Type}

/-- The kernel has few turfs, and their mixtures have slots among the first ones. -/
structure ComponentKernel.Holds (kernel : ComponentKernel F) (slots turfs : Nat) : Prop where
  few : kernel.handles.length ≤ turfs
  captured : ∀ turf record, kernel.turfs.get turf = some record →
    turf ∈ kernel.handles ∧ ∀ mixture, record.mixture = some mixture → mixture.slot.toNat < slots

theorem ComponentKernel.Holds.roomy {kernel : ComponentKernel F} {slots turfs most : Nat}
    (h : kernel.Holds slots turfs) (hmost : min turfs slots ≤ most) :
    kernel.view.Roomy slots most := by
  refine ⟨fun turf record hturf => (h.captured turf record hturf).1, ?_, ?_⟩
  · rintro handle ⟨turf, _, hlink⟩
    obtain ⟨record, hrecord, hmixture⟩ := Option.bind_eq_some_iff.1 hlink
    exact (h.captured turf record hrecord).2 handle hmixture
  · have hfew : kernel.view.handles.length ≤ turfs := h.few
    omega

/-- A kernel without turfs holds nothing. -/
theorem ComponentKernel.holds_clear {kernel : ComponentKernel F} (h : kernel.turfs.Fresh)
    (slots turfs : Nat) : kernel.clear.Holds slots turfs := by
  refine ⟨Nat.zero_le _, fun turf record hturf => ?_⟩
  have hnone : kernel.clear.turfs.get turf = none := SlotIndex.get_clear h turf
  rw [hnone] at hturf
  cases hturf

theorem ComponentKernel.holds_new (w : DogmosWorld F) (slots turfs : Nat) :
    (ComponentKernel.new w).Holds slots turfs := by
  refine ⟨Nat.zero_le _, fun turf record hturf => ?_⟩
  simp [ComponentKernel.new] at hturf

namespace StageComponentState

/-! ## Scratch that is kept -/

/-- Scratch that can be cleared and used again. -/
structure Kept (state : StageComponentState F) : Prop where
  transaction : state.transaction.WellFormed
  active : state.activeBySlot.Fresh
  visited : SlotIndex.Fresh state.visited
  turfs : ∀ kernel, state.componentKernel = some kernel → kernel.turfs.Fresh

variable {state : StageComponentState F} {slots most count : Nat}

theorem Kept.clear [FloatFormat F] (h : state.Kept) (publication : PublicationId) :
    (state.clear publication).Kept := by
  refine ⟨h.transaction.clear, SlotIndex.fresh_clear h.active, SlotIndex.fresh_clear h.visited, ?_⟩
  intro kernel hkernel
  obtain ⟨before, hbefore, rfl⟩ := Option.map_eq_some_iff.1 hkernel
  exact SlotIndex.fresh_clear (h.turfs before hbefore)

/-! ## Scratch between two units -/

/-- The transaction of the component: while a computation runs it is the computation's. -/
def work (state : StageComponentState F) : IndexedTransaction (MixtureRecord F) :=
  match state.computation with
  | some computation => computation.transaction
  | none => state.transaction

/-- Scratch between two units of a stage for a number of slots and entries that has taken `count`
turfs from the frontier. -/
structure Ready (slots most count : Nat) (state : StageComponentState F) : Prop extends
    Kept state where
  taken : state.targets.length ≤ count
  targeted : ∀ slot turf, state.activeBySlot.get slot = some turf → turf ∈ state.targets
  queued : ∀ turf ∈ state.queue, turf ∈ state.targets
  distinct : (state.queue.map TurfHandle.slot).Nodup
  seen : ∀ turf ∈ state.queue, SlotSet.contains state.visited turf.slot = true
  prepared : state.preparedTurfs ≤ state.queue.length
  captured : ∀ kernel, state.componentKernel = some kernel → kernel.Holds slots state.preparedTurfs
  wellFormed : state.work.WellFormed
  width : state.work.slotToIndex.length = slots
  room : state.work.maxEntries = most
  /-- Entries before the publication index are retired. -/
  ahead : ∀ slot index : Nat, state.work.slotToIndex[slot]? = some index → index ≠ unusedIndex →
    state.publicationIndex ≤ index
  /-- A component that is not computed has nothing in the transaction. -/
  early : state.computed = false → state.publicationIndex = 0 ∧
    (state.computation = none → state.transaction.entries = [])
  running : ∀ computation, state.computation = some computation →
    computation.kernel.turfs.Fresh ∧ computation.result ≠ .error .stateCapacityExceeded
  /-- A computed component has left its kernel. -/
  late : state.computed = true → state.computation = none ∧
    ∀ kernel, state.componentKernel = some kernel → kernel.handles = []

theorem Ready.mono (h : state.Ready slots most count) {more : Nat} (hmore : count ≤ more) :
    state.Ready slots most more :=
  { h with taken := Nat.le_trans h.taken hmore }

/-- The component has at most as many turfs as were taken. -/
theorem Ready.size (h : state.Ready slots most count) : state.queue.length ≤ count :=
  Nat.le_trans (List.subperm_of_subset h.distinct.of_map h.queued).length_le h.taken

/-! ## Discovery -/

/-- One more turf of the frontier. -/
theorem Ready.target (h : state.Ready slots most count) (turf : TurfHandle) :
    Ready slots most (count + 1)
      { state with
        targets := state.targets ++ [turf]
        activeBySlot := state.activeBySlot.insert turf.slot turf } := by
  refine { h with
    active := SlotIndex.fresh_insert h.active _ _
    taken := by simpa using h.taken
    targeted := fun slot other hother => ?_
    queued := fun other hother => List.mem_append_left _ (h.queued other hother) }
  dsimp only at hother ⊢
  rw [SlotIndex.get_insert] at hother
  split at hother
  · split at hother
    · cases hother
      exact List.mem_append_right _ (List.mem_singleton.2 rfl)
    · cases hother
  · exact List.mem_append_left _ (h.targeted slot other hother)

/-- A turf of the frontier joins the component. -/
theorem Ready.visit (h : state.Ready slots most count) {turf : TurfHandle}
    (hturf : turf ∈ state.targets) : (DogmosWorld.visitTurf state turf).Ready slots most count := by
  have hseen : ∀ other : UInt32, SlotSet.contains
      (SlotIndex.insert state.visited turf.slot ()) other =
        if other = turf.slot then true else SlotSet.contains state.visited other := by
    intro other
    rw [SlotSet.contains_insert]
    show (if other.toNat = turf.slot.toNat then _ else _) = _
    by_cases heq : other = turf.slot
    · simp [heq]
    · rw [if_neg fun h => heq (UInt32.toNat_inj.1 h), if_neg heq]
  have hvisited := SlotIndex.fresh_insert h.visited turf.slot ()
  unfold DogmosWorld.visitTurf SlotSet.insertNew
  dsimp only
  rcases hknown : SlotIndex.containsKey state.visited turf.slot with _ | _
  · -- no queued turf has the slot
    have hnew : turf.slot ∉ state.queue.map TurfHandle.slot := by
      intro hmem
      obtain ⟨other, hother, hslot⟩ := List.mem_map.1 hmem
      have hfound := h.seen other hother
      rw [hslot] at hfound
      exact Bool.false_ne_true (hknown.symm.trans hfound)
    refine { h with
      visited := hvisited
      queued := fun other hother => ?_
      distinct := ?_
      seen := fun other hother => ?_
      prepared := ?_ }
    · rcases List.mem_append.1 hother with hold | hadded
      · exact h.queued other hold
      · exact List.mem_singleton.1 hadded ▸ hturf
    · rw [Bool.not_false, if_pos rfl, List.map_append, List.map_singleton]
      exact List.nodup_append.2 ⟨h.distinct, List.nodup_singleton _,
        fun slot hold other hother heq => hnew (List.mem_singleton.1 hother ▸ heq ▸ hold)⟩
    · rw [hseen]
      rcases List.mem_append.1 hother with hold | hadded
      · rw [h.seen other hold, ite_self]
      · rw [List.mem_singleton.1 hadded, if_pos rfl]
    · have hprepared := h.prepared
      simp only [Bool.not_false, if_true, List.length_append, List.length_singleton]
      omega
  · refine { h with visited := hvisited, seen := fun other hother => ?_ }
    rw [hseen, h.seen other hother, ite_self]

/-! ## Capture -/

theorem Ready.withKernel (h : state.Ready slots most count) (w : DogmosWorld F) :
    (w.withKernel state).Ready slots most count := by
  unfold DogmosWorld.withKernel
  split
  · refine { h with
      turfs := fun kernel hkernel => ?_
      captured := fun kernel hkernel => ?_
      late := fun hcomputed => ⟨(h.late hcomputed).1, fun kernel hkernel => ?_⟩ }
    all_goals cases hkernel
    · exact SlotIndex.fresh_new
    · exact ComponentKernel.holds_new w _ _
    · rfl
  · exact h

/-- The capture moves on to the next turf. -/
theorem Ready.moveOn (h : state.Ready slots most count) {turf : TurfHandle}
    (hturf : state.queue[state.preparedTurfs]? = some turf) :
    Ready slots most count { state with preparedTurfs := state.preparedTurfs + 1 } :=
  { h with
    prepared := (List.getElem?_eq_some_iff.1 hturf).1
    captured := fun kernel hkernel =>
      ⟨Nat.le_succ_of_le (h.captured kernel hkernel).few, (h.captured kernel hkernel).captured⟩ }

/-- The next turf of the component is captured. -/
theorem Ready.capture (h : state.Ready slots most count) {w : DogmosWorld F} {turf : TurfHandle}
    {kernel kernel' : ComponentKernel F} (hcomputed : state.computed = false)
    (hturf : state.queue[state.preparedTurfs]? = some turf)
    (hkernel : state.componentKernel = some kernel) (hcapture : kernel.capture w turf = .ok kernel')
    (hlinks : ∀ record mixture, w.requireTurfHandle turf = .ok record →
      record.mixture = some mixture → mixture.slot.toNat < slots) :
    Ready slots most count
      { state with preparedTurfs := state.preparedTurfs + 1, componentKernel := some kernel' } := by
  obtain ⟨record, mixtures, hrecord, rfl⟩ := ComponentKernel.capture_eq_ok hcapture
  have hbefore := h.captured kernel hkernel
  refine { h.moveOn hturf with
    turfs := fun found hfound => ?_
    captured := fun found hfound => ⟨?_, fun other stored hstored => ?_⟩
    late := fun hlate => by cases hcomputed.symm.trans hlate }
  all_goals cases hfound
  · exact SlotIndex.fresh_insert (h.turfs kernel hkernel) _ _
  · have hfew := hbefore.few
    simp only [List.length_append, List.length_singleton]
    omega
  · dsimp only at hstored ⊢
    rw [SlotIndex.get_insert] at hstored
    split at hstored
    · split at hstored
      · next heq =>
        cases hstored
        subst heq
        exact ⟨List.mem_append_right _ (List.mem_singleton.2 rfl), fun mixture hmixture =>
          hlinks _ mixture hrecord hmixture⟩
      · cases hstored
    · obtain ⟨hmem, hinside⟩ := hbefore.captured other stored hstored
      exact ⟨List.mem_append_left _ hmem, hinside⟩

/-! ## Computation -/

/-- The computation of a captured component does not run out of entries. -/
theorem Ready.withComputation [FloatFormat F] [FloatFormat D] [FloatCast F D]
    (h : state.Ready slots most count) (hmost : min count slots ≤ most)
    (hcomputed : state.computed = false) (stage : WorldStage) :
    (DogmosWorld.withComputation (D := D) state stage).Ready slots most count := by
  unfold DogmosWorld.withComputation
  rcases hcomputation : state.computation with _ | computation
  · rcases hkernel : state.componentKernel with _ | kernel
    · exact h
    · dsimp only
      obtain ⟨hindex, hempty⟩ := h.early hcomputed
      have hwork : state.work = state.transaction := by
        unfold work
        rw [hcomputation]
      have hwidth := h.width
      have hroom := h.room
      rw [hwork] at hwidth hroom
      have hsize := h.size
      have hprepared := h.prepared
      have hroomy : kernel.view.Roomy slots most :=
        (h.captured kernel hkernel).roomy (by omega)
      have hfits : KernelView.Fits kernel.view slots most state.transaction := by
        refine ⟨h.transaction, hwidth, hroom, fun index entry hentry => ?_, fun entry hentry => ?_⟩
        all_goals
          rw [hempty hcomputation] at hentry
          simp at hentry
      obtain ⟨hdone, hresult⟩ := fits_compute (D := D) hroomy hfits state.stagedEvents stage
      refine { h with
        transaction := ⟨by show 0 < unusedIndex; decide, Nat.le_refl _, Nat.le_refl _,
          fun slot index hindex => by simp at hindex⟩
        turfs := fun found hfound => by cases hfound
        captured := fun found hfound => by cases hfound
        wellFormed := hdone.wellFormed
        width := hdone.width
        room := hdone.room
        ahead := fun slot index _ _ => by dsimp only; omega
        early := fun _ => ⟨hindex, fun hnone => by cases hnone⟩
        running := fun computation hcomputation => by
          cases hcomputation
          exact ⟨h.turfs kernel hkernel, hresult⟩
        late := fun hlate => by cases hcomputed.symm.trans hlate }
  · exact h

/-- A poll of a computation that goes on. -/
theorem Ready.polled (h : state.Ready slots most count) {computation : Computation F}
    (hcomputation : state.computation = some computation) (polls : Nat) :
    Ready slots most count
      { state with computation := some { computation with polls } } := by
  have hwork : work { state with computation := some { computation with polls } } = state.work := by
    unfold work
    rw [hcomputation]
  refine { h with
    wellFormed := hwork ▸ h.wellFormed
    width := hwork ▸ h.width
    room := hwork ▸ h.room
    ahead := hwork ▸ h.ahead
    early := fun hcomputed => ⟨(h.early hcomputed).1, fun hnone => by cases hnone⟩
    running := fun found hfound => by
      cases hfound
      exact h.running computation hcomputation
    late := fun hcomputed => ?_ }
  rw [(h.late hcomputed).1] at hcomputation
  cases hcomputation

/-- The scratch a computation leaves can be kept. -/
theorem Ready.kept_finished (h : state.Ready slots most count) {computation : Computation F}
    (hcomputation : state.computation = some computation) :
    (DogmosWorld.finishedComputation state computation).Kept := by
  have hwell := h.wellFormed
  unfold work at hwell
  rw [hcomputation] at hwell
  refine ⟨hwell, h.active, h.visited, fun kernel hkernel => ?_⟩
  cases hkernel
  exact SlotIndex.fresh_clear (h.running computation hcomputation).1

/-- A computation that succeeds leaves a computed component. -/
theorem Ready.finished (h : state.Ready slots most count) {computation : Computation F}
    (hcomputation : state.computation = some computation) :
    Ready slots most count
      { DogmosWorld.finishedComputation state computation with computed := true } := by
  have hwork : state.work = computation.transaction := by
    unfold work
    rw [hcomputation]
  have hkept := h.kept_finished hcomputation
  have hwidth := h.width
  have hroom := h.room
  have hahead := h.ahead
  rw [hwork] at hwidth hroom hahead
  refine { h with
    transaction := hkept.transaction
    turfs := hkept.turfs
    captured := fun kernel hkernel => ?_
    wellFormed := hkept.transaction
    width := hwidth
    room := hroom
    ahead := hahead
    early := fun hcomputed => by cases hcomputed
    running := fun found hfound => by cases hfound
    late := fun _ => ⟨rfl, fun kernel hkernel => ?_⟩ }
  all_goals cases hkernel
  · exact ComponentKernel.holds_clear (h.running computation hcomputation).1 _ _
  · rfl

/-! ## Publication -/

/-- An entry is staged, and retired. -/
theorem Ready.retired (h : state.Ready slots most count) (hcomputed : state.computed = true)
    {entry : TransactionEntry (MixtureRecord F)}
    (hentry : state.transaction.entries[state.publicationIndex]? = some entry) :
    Ready slots most count
      { state with
        publishedMixtures := state.publishedMixtures.insert entry.handle ()
        transaction := state.transaction.retire state.publicationIndex
        publicationIndex := state.publicationIndex + 1 } := by
  obtain ⟨hnone, hkernel⟩ := h.late hcomputed
  have hwork : state.work = state.transaction := by
    unfold work
    rw [hnone]
  have hafter : work { state with
      publishedMixtures := state.publishedMixtures.insert entry.handle ()
      transaction := state.transaction.retire state.publicationIndex
      publicationIndex := state.publicationIndex + 1 } =
      state.transaction.retire state.publicationIndex := by
    unfold work
    dsimp only
    rw [hnone]
  obtain ⟨hwell, _, hroom, hwidth, hleft⟩ := h.transaction.retire hentry
  have hahead := h.ahead
  rw [hwork] at hahead
  refine { h with
    transaction := hwell
    wellFormed := ?_
    width := ?_
    room := ?_
    ahead := ?_
    early := fun hearly => by cases hcomputed.symm.trans hearly }
  · rw [hafter]
    exact hwell
  · rw [hafter, hwidth, ← hwork]
    exact h.width
  · rw [hafter, hroom, ← hwork]
    exact h.room
  · rw [hafter]
    intro slot index hindex hused
    obtain ⟨hne, hbefore⟩ := hleft slot index hindex hused
    have hle := hahead slot index hbefore hused
    dsimp only
    omega

/-- The component is published once all entries are retired. -/
theorem Ready.published (h : state.Ready slots most count) (hcomputed : state.computed = true)
    (hdone : state.transaction.entries[state.publicationIndex]? = none)
    (publication : PublicationId) :
    (DogmosWorld.publishedComponent state publication).Ready slots most count := by
  obtain ⟨hnone, hkernel⟩ := h.late hcomputed
  have hwork : state.work = state.transaction := by
    unfold work
    rw [hnone]
  have hafter : (DogmosWorld.publishedComponent state publication).work =
      state.transaction.clearRetired := by
    unfold work DogmosWorld.publishedComponent
    dsimp only
    rw [hnone]
  have hahead := h.ahead
  rw [hwork] at hahead
  -- an entry that is led to would still have to be staged
  have hunused : ∀ slot index : Nat, state.transaction.slotToIndex[slot]? = some index →
      index = unusedIndex := by
    intro slot index hindex
    by_contra hused
    obtain ⟨_, entry, hentry, _⟩ := h.transaction.used slot index hindex hused
    have hlt := (List.getElem?_eq_some_iff.1 hentry).1
    have hle := hahead slot index hindex hused
    have hout := List.getElem?_eq_none_iff.1 hdone
    omega
  have hwell := h.transaction.clearRetired hunused
  refine { h with
    transaction := hwell
    queued := fun turf hturf => by cases hturf
    distinct := List.nodup_nil
    seen := fun turf hturf => by cases hturf
    prepared := Nat.le_refl _
    captured := fun kernel hfound => ⟨?_, (h.captured kernel hfound).captured⟩
    wellFormed := ?_
    width := ?_
    room := ?_
    ahead := fun _ index _ _ => Nat.zero_le _
    early := fun _ => ⟨rfl, fun _ => rfl⟩
    late := fun hlate => by cases hlate }
  · rw [hkernel kernel hfound]
    exact Nat.le_refl _
  · rw [hafter]
    exact hwell
  · rw [hafter, ← h.width, hwork]
    rfl
  · rw [hafter, ← h.room, hwork]
    rfl

/-! ## The start of a stage -/

/-- Cleared scratch with a new transaction. -/
theorem Kept.ready [FloatFormat F] (h : state.Kept) (publication : PublicationId)
    {transaction : IndexedTransaction (MixtureRecord F)} (hwell : transaction.WellFormed)
    (hempty : transaction.entries = []) :
    Ready transaction.slotToIndex.length transaction.maxEntries 0
      { state.clear publication with transaction } := by
  have hkept := h.clear publication
  exact
    { hkept with
      transaction := hwell
      taken := Nat.zero_le _
      targeted := fun slot turf hturf => by
        have hnone : (state.clear publication).activeBySlot.get slot = none :=
          SlotIndex.get_clear h.active slot
        rw [hnone] at hturf
        cases hturf
      queued := fun turf hturf => by cases hturf
      distinct := List.nodup_nil
      seen := fun turf hturf => by cases hturf
      prepared := Nat.zero_le _
      captured := fun kernel hkernel => by
        obtain ⟨before, hbefore, rfl⟩ := Option.map_eq_some_iff.1 hkernel
        exact ComponentKernel.holds_clear (h.turfs before hbefore) _ _
      wellFormed := hwell
      width := rfl
      room := rfl
      ahead := fun _ _ _ _ => Nat.zero_le _
      early := fun _ => ⟨rfl, fun _ => hempty⟩
      running := fun computation hcomputation => by cases hcomputation
      late := fun hlate => by cases hlate }

theorem ready_around (publication : PublicationId)
    {transaction : IndexedTransaction (MixtureRecord F)} (hwell : transaction.WellFormed)
    (hempty : transaction.entries = []) :
    Ready transaction.slotToIndex.length transaction.maxEntries 0
      (StageComponentState.around publication transaction) where
  transaction := hwell
  active := SlotIndex.fresh_new
  visited := SlotIndex.fresh_new
  turfs kernel hkernel := by cases hkernel
  taken := Nat.zero_le _
  targeted slot turf hturf := by simp [StageComponentState.around] at hturf
  queued turf hturf := by cases hturf
  distinct := List.nodup_nil
  seen turf hturf := by cases hturf
  prepared := Nat.zero_le _
  captured kernel hkernel := by cases hkernel
  wellFormed := hwell
  width := rfl
  room := rfl
  ahead _ _ _ _ := Nat.zero_le _
  early _ := ⟨rfl, fun _ => hempty⟩
  running computation hcomputation := by cases hcomputation
  late hlate := by cases hlate

end StageComponentState

end Dogmos
