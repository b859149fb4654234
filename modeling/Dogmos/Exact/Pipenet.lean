import Dogmos.Exact.Convexity
import Dogmos.Exact.NativeReactions
import Dogmos.Runs.Atomic
import Dogmos.Runs.Stored
import Mathlib.Algebra.BigOperators.Field

/-!
# Reconciling a pipenet

The mixtures of a pipenet are brought to one temperature and share all their gas in proportion to
their volumes.  The sums are taken over the distinct members, so order and repetitions of the list
do not matter.

* `Reconciled` — what each member holds afterwards, and that the rest of the world stays.
* `addedAll_eq`, `run_applyMixtureState_iff` — the two passes of the command.
* `reconcile_pipenet` — success reconciles the members, and every list of them succeeds alike; that
  no member holds a negative amount is proved of every reachable world (`Members.filled`).
-/

namespace Dogmos

open Exec Finset

namespace DogmosWorld

/-! ## The members -/

section Members

variable (w : DogmosWorld ℚ) (members : Finset MixtureHandle)

/-- The record of a member. -/
def memberRecord (handle : MixtureHandle) : MixtureRecord ℚ :=
  (w.requireHandle handle).toOption.getD .new

/-- The volume of all members. -/
def pipenetVolume : ℚ := ∑ handle ∈ members, (w.memberRecord handle).volume

/-- The amount of a gas in all members. -/
def pipenetAmount (index : Nat) : ℚ :=
  ∑ handle ∈ members, (w.memberRecord handle).gases.at index

/-- The heat capacity of all members. -/
def pipenetCapacity : ℚ :=
  ∑ handle ∈ members, foldHeatCapacity (w.memberRecord handle).gases w.heats

/-- The thermal energy of all members. -/
def pipenetEnergy : ℚ :=
  ∑ handle ∈ members, (w.memberRecord handle).temperature *
    foldHeatCapacity (w.memberRecord handle).gases w.heats

/-- The temperature of a reconciled pipenet. -/
def pipenetTemperature : ℚ :=
  if w.pipenetCapacity members = 0 then 27 / 10
  else max (w.pipenetEnergy members / w.pipenetCapacity members) (27 / 10)

/-- The share of a gas a member is given, before traces are dropped. -/
def pipenetShare (index : Nat) (handle : MixtureHandle) : ℚ :=
  w.pipenetAmount members index *
    ((w.memberRecord handle).volume / w.pipenetVolume members)

/-- The thermal energy of the shares at the common temperature. -/
def sharedEnergy : ℚ :=
  ∑ handle ∈ members, w.pipenetTemperature members *
    ∑ index ∈ range maxGasSlots, heatAt w.heats index * w.pipenetShare members index handle

/-- A reconciled pipenet: its members share one temperature and, but for traces, the gas they held
together; the energy is kept, or raised to that of the least temperature. -/
structure Reconciled (w' : DogmosWorld ℚ) : Prop where
  left : ∀ handle ∈ members, ∃ record, w'.requireHandle handle = .ok record ∧
    record.temperature = w.pipenetTemperature members ∧
    record.volume = (w.memberRecord handle).volume ∧
    ∀ index, record.gases.at index = dropTrace (w.pipenetShare members index handle)
  matter : ∀ index, ∑ handle ∈ members, w.pipenetShare members index handle =
    w.pipenetAmount members index
  energy : w.sharedEnergy members =
    max (w.pipenetEnergy members) (27 / 10 * w.pipenetCapacity members)
  warm : (∀ handle ∈ members, 27 / 10 ≤ (w.memberRecord handle).temperature) →
    w.sharedEnergy members = w.pipenetEnergy members
  others : ∀ handle record, handle ∉ members →
    (w'.requireHandle handle = .ok record ↔ w.requireHandle handle = .ok record)

/-- Members are live and mutable and have no minimum heat capacity. -/
structure Members : Prop where
  live : ∀ handle ∈ members, w.requireHandle handle = .ok (w.memberRecord handle)
  mutable : ∀ handle ∈ members, (w.memberRecord handle).immutable = false
  minimum : ∀ handle ∈ members, (w.memberRecord handle).minimumHeatCapacity = 0

/-- Members that hold no negative amount. -/
structure FilledMembers : Prop extends Members w members where
  amounts : ∀ handle ∈ members, ∀ index, 0 ≤ (w.memberRecord handle).gases.at index

end Members

variable {w w' : DogmosWorld ℚ} {members : Finset MixtureHandle}

/-! ## Sums -/

section Sums

theorem matter_kept (hvolume : 0 < w.pipenetVolume members) (index : Nat) :
    ∑ handle ∈ members, w.pipenetShare members index handle = w.pipenetAmount members index := by
  simp only [pipenetShare]
  rw [← mul_sum, ← sum_div]
  rw [show ∑ handle ∈ members, (w.memberRecord handle).volume = w.pipenetVolume members from rfl,
    div_self hvolume.ne', mul_one]

/-- The shares of all members have the heat capacity the members had. -/
theorem sharedCapacity_eq (hvolume : 0 < w.pipenetVolume members) :
    ∑ handle ∈ members, ∑ index ∈ range maxGasSlots,
      heatAt w.heats index * w.pipenetShare members index handle = w.pipenetCapacity members := by
  rw [sum_comm, pipenetCapacity]
  simp only [foldHeatCapacity_eq]
  rw [sum_comm (s := members)]
  refine sum_congr rfl fun index _ => ?_
  rw [← mul_sum, ← mul_sum, matter_kept hvolume]
  rfl

theorem pipenetCapacity_nonneg (hheats : HeatsNonneg w.heats) (hmembers : w.FilledMembers members) :
    0 ≤ w.pipenetCapacity members :=
  sum_nonneg fun handle hhandle => foldHeatCapacity_nonneg hheats (hmembers.amounts handle hhandle)

/-- A pipenet without heat capacity holds no energy. -/
theorem pipenetEnergy_eq_zero (hheats : HeatsNonneg w.heats) (hmembers : w.FilledMembers members)
    (hcapacity : w.pipenetCapacity members = 0) : w.pipenetEnergy members = 0 := by
  have hzero := (sum_eq_zero_iff_of_nonneg fun handle hhandle =>
    foldHeatCapacity_nonneg hheats (hmembers.amounts handle hhandle)).1 hcapacity
  refine sum_eq_zero fun handle hhandle => ?_
  rw [hzero handle hhandle, mul_zero]

/-- The energy is kept, or raised to that of the least temperature. -/
theorem sharedEnergy_eq (hheats : HeatsNonneg w.heats) (hmembers : w.FilledMembers members)
    (hvolume : 0 < w.pipenetVolume members) : w.sharedEnergy members =
      max (w.pipenetEnergy members) (27 / 10 * w.pipenetCapacity members) := by
  rw [sharedEnergy, ← mul_sum, sharedCapacity_eq hvolume, pipenetTemperature]
  have hnonneg := pipenetCapacity_nonneg hheats hmembers
  split
  · next hzero =>
    rw [hzero, pipenetEnergy_eq_zero hheats hmembers hzero, mul_zero, max_self]
  · next hne =>
    rw [max_mul_of_nonneg _ _ hnonneg, div_mul_cancel₀ _ hne]

/-- Members of at least the least temperature keep their energy. -/
theorem le_pipenetEnergy (hheats : HeatsNonneg w.heats) (hmembers : w.FilledMembers members)
    (hwarm : ∀ handle ∈ members, 27 / 10 ≤ (w.memberRecord handle).temperature) :
    27 / 10 * w.pipenetCapacity members ≤ w.pipenetEnergy members := by
  rw [pipenetCapacity, mul_sum]
  refine sum_le_sum fun handle hhandle => ?_
  exact mul_le_mul_of_nonneg_right (hwarm handle hhandle)
    (foldHeatCapacity_nonneg hheats (hmembers.amounts handle hhandle))

end Sums

/-! ## The first pass -/

section Totals

variable {ε α β : Type}

theorem foldlM_eq_ok_foldl {f : β → α → Except ε β} {g : β → α → β} {l : List α}
    (h : ∀ a ∈ l, ∀ b, f b a = .ok (g b a)) : ∀ b, l.foldlM f b = .ok (l.foldl g b) := by
  induction l with
  | nil => exact fun _ => rfl
  | cons a rest ih =>
    intro b
    rw [List.forall_mem_cons] at h
    rw [List.foldlM_cons, h.1 b]
    exact ih h.2 _

theorem mapM_eq_ok_map {f : α → Except ε β} {g : α → β} {l : List α}
    (h : ∀ a ∈ l, f a = .ok (g a)) : l.mapM f = .ok (l.map g) := by
  induction l with
  | nil => rfl
  | cons a rest ih =>
    rw [List.forall_mem_cons] at h
    rw [List.mapM_cons, h.1, ih h.2]
    rfl

/-- One member added to the totals. -/
def addMember (w : DogmosWorld ℚ) (totals : PipenetTotals ℚ) (handle : MixtureHandle) :
    PipenetTotals ℚ :=
  let mixture := w.memberRecord handle
  let capacity := recordHeatCapacity mixture w.heats
  { gases := Vector.zipWith (· + ·) totals.gases mixture.gases
    thermalEnergy := totals.thermalEnergy + mixture.temperature * capacity
    heatCapacity := totals.heatCapacity + capacity
    volume := totals.volume + mixture.volume }

theorem addToPipenet_eq {registry : GasMetadataRegistry ℚ}
    (hregistry : w.requireGases = .ok registry) {handle : MixtureHandle}
    (h : w.requireHandle handle = .ok (w.memberRecord handle)) (totals : PipenetTotals ℚ) :
    w.addToPipenet totals handle = .ok (w.addMember totals handle) := by
  rw [addToPipenet, h]
  simp only [bind, Except.bind, heatCapacity, hregistry, pure, Except.pure, addMember,
    requireGases_eq_ok hregistry]

/-- The totals of a list of handles. -/
theorem foldl_addMember (handles : List MixtureHandle) : ∀ totals : PipenetTotals ℚ,
    (handles.foldl w.addMember totals).thermalEnergy = totals.thermalEnergy +
      (handles.map fun handle => (w.memberRecord handle).temperature *
        recordHeatCapacity (w.memberRecord handle) w.heats).sum ∧
    (handles.foldl w.addMember totals).heatCapacity = totals.heatCapacity +
      (handles.map fun handle => recordHeatCapacity (w.memberRecord handle) w.heats).sum ∧
    (handles.foldl w.addMember totals).volume = totals.volume +
      (handles.map fun handle => (w.memberRecord handle).volume).sum ∧
    ∀ index, (handles.foldl w.addMember totals).gases.at index = totals.gases.at index +
      (handles.map fun handle => (w.memberRecord handle).gases.at index).sum := by
  induction handles with
  | nil => simp
  | cons handle rest ih =>
    intro totals
    rw [List.foldl_cons]
    obtain ⟨henergy, hcapacity, hvolume, hgases⟩ := ih (w.addMember totals handle)
    refine ⟨?_, ?_, ?_, fun index => ?_⟩
    · rw [henergy, List.map_cons, List.sum_cons, ← add_assoc]
      rfl
    · rw [hcapacity, List.map_cons, List.sum_cons, ← add_assoc]
      rfl
    · rw [hvolume, List.map_cons, List.sum_cons, ← add_assoc]
      rfl
    · rw [hgases, List.map_cons, List.sum_cons, ← add_assoc]
      congr 1
      by_cases hindex : index < maxGasSlots
      · exact Gases.at_zipWith _ _ _ hindex
      · have hlarge := Nat.le_of_not_lt hindex
        rw [Gases.at_of_le _ hlarge, Gases.at_of_le _ hlarge, Gases.at_of_le _ hlarge, exact_zero,
          add_zero]

end Totals

/-! ## The second pass -/

section Writes

variable {mutations : List (MixtureStateMutation ℚ)}

/-- The writes of a batch of states, in order. -/
def writeStates (w : DogmosWorld ℚ) (mutations : List (MixtureStateMutation ℚ)) : DogmosWorld ℚ :=
  mutations.foldl
    (fun w mutation => w.writeMixture mutation.handle.slot.toNat (applyState mutation)) w

theorem run_writes (mutations : List (MixtureStateMutation ℚ)) : ∀ w : DogmosWorld ℚ,
    run (mutations.forM fun mutation =>
      (modify fun w => w.writeMixture mutation.handle.slot.toNat (applyState mutation) :
        WorldM ℚ PUnit)) w = (.ok ⟨⟩, w.writeStates mutations) := by
  induction mutations with
  | nil => exact fun _ => rfl
  | cons mutation rest ih =>
    intro w
    rw [run_forM_cons, run_bind, run_modify]
    exact ih _

/-- A batch on different slots is applied exactly if each of its states passes the checks. -/
theorem run_applyMixtureState
    (hslots : (mutations.map fun mutation => mutation.handle.slot).Nodup) :
    (∀ mutation ∈ mutations, (w.validateMixtureState mutation).isOk = true) ∧
        run (applyMixtureState mutations) w =
          (.ok (UInt32.ofNat mutations.length), w.writeStates mutations) ∨
      (∃ mutation ∈ mutations, (w.validateMixtureState mutation).isOk = false) ∧
        ∃ error, run (applyMixtureState mutations) w = (.error error, w) := by
  unfold applyMixtureState
  rw [run_bind]
  rcases run_checks (w := w) mutations fun mutation w => w.validateMixtureState mutation with
    ⟨⟨error, herror⟩, hfails⟩ | ⟨hok, hall⟩
  · refine .inr ⟨hfails, error, ?_⟩
    rw [herror]
  · refine .inl ⟨hall, ?_⟩
    have hsorted := (List.perm_insertionSort (· ≤ ·)
      (mutations.map fun mutation => mutation.handle.slot)).nodup_iff.2 hslots
    have hdistinct : firstRepeated (fun slot : UInt32 => slot)
        ((mutations.map fun mutation => mutation.handle.slot).insertionSort (· ≤ ·)) = none :=
      firstRepeated_eq_none (by rwa [List.map_id'])
    rw [hok]
    dsimp only
    rw [hdistinct]
    dsimp only
    rw [run_bind, run_writes]
    rfl

/-- What the writes leave of the mixtures. -/
theorem requireHandle_writeStates (mutations : List (MixtureStateMutation ℚ)) :
    ∀ w : DogmosWorld ℚ, (mutations.map fun mutation => mutation.handle.slot).Nodup →
    (∀ mutation ∈ mutations, ∀ record, w.requireHandle mutation.handle = .ok record →
      (w.writeStates mutations).requireHandle mutation.handle =
        .ok (applyState mutation record)) ∧
    ∀ other record, other.slot ∉ mutations.map (fun mutation => mutation.handle.slot) →
      ((w.writeStates mutations).requireHandle other = .ok record ↔
        w.requireHandle other = .ok record) := by
  induction mutations with
  | nil => exact fun w _ => ⟨fun mutation h => (by cases h), fun other record _ => Iff.rfl⟩
  | cons mutation rest ih =>
    intro w hslots
    rw [List.map_cons, List.nodup_cons] at hslots
    obtain ⟨hwritten, hothers⟩ := ih (w.writeMixture mutation.handle.slot.toNat
      (applyState mutation)) hslots.2
    refine ⟨fun written hmem record hrecord => ?_, fun other record hother => ?_⟩
    · rcases List.mem_cons.1 hmem with rfl | hmem
      · exact (hothers written.handle _ hslots.1).2 (requireHandle_writeMixture_self hrecord)
      · refine hwritten written hmem record ?_
        refine (requireHandle_writeMixture_iff written.handle record fun heq => ?_).2 hrecord
        refine hslots.1 ?_
        rw [← heq]
        exact List.mem_map_of_mem hmem
    · rw [List.map_cons, List.mem_cons, not_or] at hother
      exact (hothers other record hother.2).trans
        (requireHandle_writeMixture_iff other record hother.1)

end Writes

/-! ## The command -/

section Command

variable {handles : List MixtureHandle}

/-- The distinct handles of a list, each at its first place. -/
def distinctHandles (handles : List MixtureHandle) : List MixtureHandle :=
  handles.reverse.dedup.reverse

theorem nodup_distinctHandles (handles : List MixtureHandle) : (distinctHandles handles).Nodup :=
  List.nodup_reverse.2 (List.nodup_dedup _)

theorem mem_distinctHandles {handle : MixtureHandle} :
    handle ∈ distinctHandles handles ↔ handle ∈ handles := by
  rw [distinctHandles, List.mem_reverse, List.mem_dedup, List.mem_reverse]

theorem toFinset_distinctHandles (handles : List MixtureHandle) :
    (distinctHandles handles).toFinset = handles.toFinset := by
  ext handle
  rw [List.mem_toFinset, List.mem_toFinset, mem_distinctHandles]

/-- What a reconciled pipenet writes to a member. -/
def memberMutation (w : DogmosWorld ℚ) (members : Finset MixtureHandle) (handle : MixtureHandle) :
    MixtureStateMutation ℚ :=
  { handle
    expectedRevision := (w.memberRecord handle).revision
    temperature := w.pipenetTemperature members
    volume := (w.memberRecord handle).volume
    gases := Vector.ofFn fun index => w.pipenetShare members index handle }

/-- The checks of the command on its members. -/
structure PipenetChecks (w : DogmosWorld ℚ) (members : Finset MixtureHandle) : Prop where
  handles : ∀ handle ∈ members, (w.validatePipenetHandle handle).isOk = true
  states : ∀ handle ∈ members,
    (w.validateMixtureState (w.memberMutation members handle)).isOk = true
  registry : w.requireGases.isOk = true

theorem memberCapacity_eq (hheats : HeatsNonneg w.heats) (hmembers : w.FilledMembers members)
    {handle : MixtureHandle} (hhandle : handle ∈ members) :
    recordHeatCapacity (w.memberRecord handle) w.heats =
      foldHeatCapacity (w.memberRecord handle).gases w.heats := by
  rw [recordHeatCapacity_eq, hmembers.minimum handle hhandle, max_eq_left]
  exact foldHeatCapacity_nonneg hheats (hmembers.amounts handle hhandle)

/-- The totals the command starts with. -/
def noTotals : PipenetTotals ℚ :=
  { gases := noGases, thermalEnergy := 0.0, heatCapacity := 0.0, volume := 0.0 }

theorem noTotals_eq : noTotals.thermalEnergy = 0 ∧ noTotals.heatCapacity = 0 ∧ noTotals.volume = 0 ∧
    ∀ index, noTotals.gases.at index = 0 :=
  ⟨exact_zero, exact_zero, exact_zero, fun index => (Gases.at_noGases index).trans exact_zero⟩

/-- **The totals** do not depend on the list of the members. -/
theorem totals_eq (hheats : HeatsNonneg w.heats) (hmembers : w.FilledMembers handles.toFinset) :
    (distinctHandles handles).foldl w.addMember noTotals =
      { gases := Vector.ofFn fun index => w.pipenetAmount handles.toFinset index
        thermalEnergy := w.pipenetEnergy handles.toFinset
        heatCapacity := w.pipenetCapacity handles.toFinset
        volume := w.pipenetVolume handles.toFinset } := by
  obtain ⟨henergy, hcapacity, hvolume, hgases⟩ :=
    foldl_addMember (w := w) (distinctHandles handles) noTotals
  have hsum : ∀ f : MixtureHandle → ℚ,
      ((distinctHandles handles).map f).sum = ∑ handle ∈ handles.toFinset, f handle := by
    intro f
    rw [← toFinset_distinctHandles, List.sum_toFinset f (nodup_distinctHandles handles)]
  obtain ⟨hnoEnergy, hnoCapacity, hnoVolume, hnoGases⟩ := noTotals_eq
  rw [hsum, hnoEnergy, zero_add] at henergy
  rw [hsum, hnoCapacity, zero_add] at hcapacity
  rw [hsum, hnoVolume, zero_add] at hvolume
  generalize (distinctHandles handles).foldl w.addMember noTotals = totals at *
  obtain ⟨gases, energy, capacity, volume⟩ := totals
  dsimp only at henergy hcapacity hvolume hgases
  rw [PipenetTotals.mk.injEq]
  refine ⟨?_, ?_, ?_, hvolume⟩
  · refine Gases.ext_at fun index hindex => ?_
    rw [hgases, Gases.at_ofFn _ hindex, hnoGases, zero_add, hsum]
    rfl
  · rw [henergy]
    refine sum_congr rfl fun handle hhandle => ?_
    rw [memberCapacity_eq hheats hmembers hhandle]
  · rw [hcapacity]
    exact sum_congr rfl fun handle hhandle => memberCapacity_eq hheats hmembers hhandle

/-- The totals of a list of members, as the command finds them. -/
def pipenetTotals (w : DogmosWorld ℚ) (members : Finset MixtureHandle) : PipenetTotals ℚ :=
  { gases := Vector.ofFn fun index => w.pipenetAmount members index
    thermalEnergy := w.pipenetEnergy members
    heatCapacity := w.pipenetCapacity members
    volume := w.pipenetVolume members }

theorem pipenetMutation_eq {handle : MixtureHandle}
    (h : w.requireHandle handle = .ok (w.memberRecord handle)) :
    w.pipenetMutation (w.pipenetTotals members) (w.pipenetTemperature members) handle =
      .ok (w.memberMutation members handle) := by
  have hgases : Vector.map (fun amount => amount *
      ((w.memberRecord handle).volume / w.pipenetVolume members))
      (Vector.ofFn fun index : Fin maxGasSlots => w.pipenetAmount members index) =
      Vector.ofFn fun index : Fin maxGasSlots => w.pipenetShare members index handle := by
    refine Gases.ext_at fun index hindex => ?_
    rw [Gases.at_map _ _ hindex, Gases.at_ofFn _ hindex, Gases.at_ofFn _ hindex]
    rfl
  rw [pipenetMutation, h]
  simp only [bind, Except.bind, pure, Except.pure, pipenetTotals, memberMutation, hgases]

theorem slots_nodup (hmembers : w.Members handles.toFinset) :
    (((distinctHandles handles).map (w.memberMutation handles.toFinset)).map
      fun mutation => mutation.handle.slot).Nodup := by
  rw [List.map_map]
  refine (nodup_distinctHandles handles).map_on fun first hfirst second hsecond hslot => ?_
  by_contra hne
  refine slot_ne_of_requireHandle hne (hmembers.live first ?_) (hmembers.live second ?_) hslot
  · rwa [List.mem_toFinset, ← mem_distinctHandles]
  · rwa [List.mem_toFinset, ← mem_distinctHandles]

/-- **The command** writes to the members exactly if they pass its checks, whatever the list. -/
theorem run_reconcilePipenet (hheats : HeatsNonneg w.heats)
    (hmembers : w.FilledMembers handles.toFinset) (hvolume : 0 < w.pipenetVolume handles.toFinset) :
    w.PipenetChecks handles.toFinset ∧ run (reconcilePipenet handles) w =
        (.ok (distinctHandles handles), w.writeStates
          ((distinctHandles handles).map (w.memberMutation handles.toFinset))) ∨
      ¬w.PipenetChecks handles.toFinset ∧
        ∃ error, run (reconcilePipenet handles) w = (.error error, w) := by
  have hmem : ∀ {handle}, handle ∈ distinctHandles handles ↔ handle ∈ handles.toFinset := by
    intro handle
    rw [List.mem_toFinset, mem_distinctHandles]
  unfold reconcilePipenet
  rw [← distinctHandles]
  dsimp only
  rw [run_bind]
  rcases run_checks (w := w) (distinctHandles handles) fun handle w =>
    w.validatePipenetHandle handle with ⟨⟨error, herror⟩, handle, hhandle, hfail⟩ | ⟨hok, hall⟩
  · refine .inr ⟨fun hchecks => ?_, error, by rw [herror]⟩
    rw [hchecks.handles handle (hmem.1 hhandle)] at hfail
    cases hfail
  rw [hok]
  dsimp only
  rw [run_bind, run_check]
  rcases hregistry : w.requireGases with error | registry
  · refine .inr ⟨fun hchecks => ?_, error, ?_⟩
    · have hinstalled := hchecks.registry
      rw [hregistry] at hinstalled
      cases hinstalled
    · rcases hhandles : distinctHandles handles with _ | ⟨first, rest⟩
      · rw [← toFinset_distinctHandles, hhandles] at hvolume
        exact absurd hvolume (lt_irrefl _)
      · have hfirst : first ∈ handles.toFinset := hmem.1 (hhandles ▸ List.mem_cons_self)
        rw [List.foldlM_cons, addToPipenet, hmembers.live first hfirst]
        simp only [bind, Except.bind, heatCapacity, hregistry]
  have hfold : (distinctHandles handles).foldlM w.addToPipenet noTotals =
      .ok (w.pipenetTotals handles.toFinset) := by
    rw [foldlM_eq_ok_foldl (g := w.addMember), totals_eq hheats hmembers]
    · rfl
    · intro handle hhandle totals
      exact addToPipenet_eq hregistry (hmembers.live handle (hmem.1 hhandle)) totals
  rw [← noTotals, hfold]
  dsimp only
  have hsome : ¬((w.pipenetTotals handles.toFinset).volume == 0.0) = true := by
    rw [beq_iff_eq, exact_zero]
    exact hvolume.ne'
  have htemperature : (if (w.pipenetTotals handles.toFinset).heatCapacity == 0.0 then
      minimumTemperatureK
      else fmax ((w.pipenetTotals handles.toFinset).thermalEnergy /
        (w.pipenetTotals handles.toFinset).heatCapacity) minimumTemperatureK) =
      w.pipenetTemperature handles.toFinset := by
    rw [exact_minimumTemperatureK, pipenetTemperature]
    refine if_congr ?_ rfl rfl
    rw [beq_iff_eq, exact_zero]
    rfl
  have hmutations : (distinctHandles handles).mapM
      (w.pipenetMutation (w.pipenetTotals handles.toFinset)
        (w.pipenetTemperature handles.toFinset)) =
      .ok ((distinctHandles handles).map (w.memberMutation handles.toFinset)) :=
    mapM_eq_ok_map fun handle hhandle => pipenetMutation_eq (hmembers.live handle (hmem.1 hhandle))
  rw [if_neg hsome, htemperature, run_bind, run_check, hmutations]
  dsimp only
  rw [run_bind]
  rcases run_applyMixtureState (w := w) (slots_nodup hmembers.toMembers) with
    ⟨hvalid, hrun⟩ | ⟨⟨mutation, hmutation, hfail⟩, error, hrun⟩
  · refine .inl ⟨⟨fun handle hhandle => hall handle (hmem.2 hhandle), fun handle hhandle =>
      hvalid _ (List.mem_map_of_mem (hmem.2 hhandle)), ?_⟩, ?_⟩
    · rw [hregistry]
      rfl
    · rw [hrun]
      rfl
  · refine .inr ⟨fun hchecks => ?_, error, ?_⟩
    · obtain ⟨handle, hhandle, rfl⟩ := List.mem_map.1 hmutation
      rw [hchecks.states handle (hmem.1 hhandle)] at hfail
      cases hfail
    · rw [hrun]

/-- What the writes leave of the members. -/
theorem requireHandle_reconciled (hmembers : w.Members handles.toFinset) :
    (∀ handle ∈ handles.toFinset, (w.writeStates ((distinctHandles handles).map
        (w.memberMutation handles.toFinset))).requireHandle handle =
      .ok (applyState (w.memberMutation handles.toFinset handle) (w.memberRecord handle))) ∧
    ∀ handle record, handle ∉ handles.toFinset →
      ((w.writeStates ((distinctHandles handles).map
        (w.memberMutation handles.toFinset))).requireHandle handle = .ok record ↔
          w.requireHandle handle = .ok record) := by
  obtain ⟨hwritten, hothers⟩ := requireHandle_writeStates ((distinctHandles handles).map
    (w.memberMutation handles.toFinset)) w (slots_nodup hmembers)
  have hleft : ∀ handle ∈ handles.toFinset, (w.writeStates ((distinctHandles handles).map
      (w.memberMutation handles.toFinset))).requireHandle handle =
        .ok (applyState (w.memberMutation handles.toFinset handle) (w.memberRecord handle)) := by
    intro handle hhandle
    refine hwritten (w.memberMutation handles.toFinset handle) ?_ _ (hmembers.live handle hhandle)
    exact List.mem_map_of_mem (mem_distinctHandles.2 (List.mem_toFinset.1 hhandle))
  refine ⟨hleft, fun handle record hhandle => ?_⟩
  by_cases hslot : handle.slot ∈ ((distinctHandles handles).map
      (w.memberMutation handles.toFinset)).map fun mutation => mutation.handle.slot
  · rw [List.map_map] at hslot
    obtain ⟨member, hmember, hsame⟩ := List.mem_map.1 hslot
    have hmem : member ∈ handles.toFinset := List.mem_toFinset.2 (mem_distinctHandles.1 hmember)
    have hne : member ≠ handle := fun heq => hhandle (heq ▸ hmem)
    exact iff_of_false (fun h => slot_ne_of_requireHandle hne (hleft member hmem) h hsame)
      fun h => slot_ne_of_requireHandle hne (hmembers.live member hmem) h hsame
  · exact hothers handle record hslot

/-- The members of a list that the command accepts are reconciled. -/
theorem reconciled_writeStates (hheats : HeatsNonneg w.heats)
    (hmembers : w.FilledMembers handles.toFinset) (hvolume : 0 < w.pipenetVolume handles.toFinset) :
    w.Reconciled handles.toFinset (w.writeStates
      ((distinctHandles handles).map (w.memberMutation handles.toFinset))) := by
  obtain ⟨hleft, hothers⟩ := requireHandle_reconciled hmembers.toMembers
  have henergy := sharedEnergy_eq hheats hmembers hvolume
  refine ⟨fun handle hhandle => ?_, matter_kept hvolume, henergy, fun hwarm => ?_, hothers⟩
  · refine ⟨_, hleft handle hhandle, ?_⟩
    rw [applyState, if_neg (by rw [hmembers.mutable handle hhandle]; exact Bool.false_ne_true)]
    refine ⟨rfl, rfl, fun index => ?_⟩
    by_cases hindex : index < maxGasSlots
    · exact (Gases.at_map _ _ hindex).trans (congrArg dropTrace (Gases.at_ofFn _ hindex))
    · have hlarge := Nat.le_of_not_lt hindex
      have hnone : w.pipenetAmount handles.toFinset index = 0 :=
        sum_eq_zero fun handle _ => (Gases.at_of_le _ hlarge).trans exact_zero
      rw [Gases.at_of_le _ hlarge, pipenetShare, hnone, zero_mul, dropTrace_eq, exact_zero,
        if_pos (by norm_num)]
  · rw [henergy, max_eq_left (le_pipenetEnergy hheats hmembers hwarm)]

/-- Members without negative amounts are reconciled by every list of them alike. -/
theorem reconciled_of_filledMembers (hequipped : w.Equipped)
    (hmembers : w.FilledMembers handles.toFinset)
    (hvolume : 0 < w.pipenetVolume handles.toFinset) {out : List MixtureHandle}
    (hrun : run (reconcilePipenet handles) w = (.ok out, w')) :
    out.Nodup ∧ out.toFinset = handles.toFinset ∧ w.Reconciled handles.toFinset w' ∧
    ∀ handles' : List MixtureHandle, handles'.toFinset = handles.toFinset →
      ∃ out' w'', run (reconcilePipenet handles') w = (.ok out', w'') ∧ out'.Perm out ∧
        ∀ handle record,
          w''.requireHandle handle = .ok record ↔ w'.requireHandle handle = .ok record := by
  have hheats := hequipped.heats_nonneg
  rcases run_reconcilePipenet hheats hmembers hvolume with ⟨hchecks, hok⟩ | ⟨-, error, herror⟩
  · rw [hok] at hrun
    cases hrun
    refine ⟨nodup_distinctHandles handles, toFinset_distinctHandles handles,
      reconciled_writeStates hheats hmembers hvolume, fun handles' hsame => ?_⟩
    rw [← hsame] at hmembers hvolume hchecks
    rcases run_reconcilePipenet hheats hmembers hvolume with ⟨-, hok'⟩ | ⟨hfail, -⟩
    · refine ⟨_, _, hok', ?_, fun handle record => ?_⟩
      · refine (List.perm_ext_iff_of_nodup (nodup_distinctHandles _) (nodup_distinctHandles _)).2 ?_
        intro handle
        rw [mem_distinctHandles, mem_distinctHandles, ← List.mem_toFinset, hsame, List.mem_toFinset]
      · obtain ⟨hleft', hothers'⟩ := requireHandle_reconciled hmembers.toMembers
        obtain ⟨hleft, hothers⟩ := requireHandle_reconciled (hsame ▸ hmembers.toMembers)
        by_cases hhandle : handle ∈ handles.toFinset
        · rw [hleft' handle (hsame ▸ hhandle), hleft handle hhandle, hsame]
        · rw [hothers' handle record (hsame ▸ hhandle), hothers handle record hhandle]
    · exact absurd hchecks hfail
  · rw [herror] at hrun
    cases hrun

/-- A reachable world holds no negative amounts. -/
theorem Members.filled (h : w.Members members) (hw : Reachable (D := ℚ) w) :
    w.FilledMembers members := by
  refine ⟨h, fun handle hhandle index => ?_⟩
  have hvisible := (requireHandle_eq_ok.1 (h.live handle hhandle)).2
  have hstores : w.Stores fun amount => 0 ≤ amount :=
    stores_of_reachable exact_zero.ge (fun _ => nonneg_of_made) hw
  by_cases hindex : index < maxGasSlots
  · exact hstores.visible hvisible index hindex
  · rw [Gases.at_of_le _ (Nat.le_of_not_lt hindex), exact_zero]

/-- **A pipenet is reconciled** by every list of its members alike. -/
theorem reconcile_pipenet (hw : Reachable (D := ℚ) w) (hmembers : w.Members handles.toFinset)
    (hvolume : 0 < w.pipenetVolume handles.toFinset) {out : List MixtureHandle}
    (hrun : run (reconcilePipenet handles) w = (.ok out, w')) :
    out.Nodup ∧ out.toFinset = handles.toFinset ∧ w.Reconciled handles.toFinset w' ∧
    ∀ handles' : List MixtureHandle, handles'.toFinset = handles.toFinset →
      ∃ out' w'', run (reconcilePipenet handles') w = (.ok out', w'') ∧ out'.Perm out ∧
        ∀ handle record,
          w''.requireHandle handle = .ok record ↔ w'.requireHandle handle = .ok record :=
  reconciled_of_filledMembers (equipped_of_reachable hw) (hmembers.filled hw) hvolume hrun

end Command

/-! ## Two pipenets -/

section Worlds

theorem memberRecord_live {handle : MixtureHandle}
    (h : (w.requireHandle handle).toBool = true) :
    w.requireHandle handle = .ok (w.memberRecord handle) := by
  rcases hrecord : w.requireHandle handle with error | record
  · rw [hrecord] at h
    cases h
  · rw [memberRecord, hrecord]
    rfl

/-- Members by evaluation. -/
def isMember (w : DogmosWorld ℚ) (handle : MixtureHandle) : Bool :=
  (w.requireHandle handle).toBool && !(w.memberRecord handle).immutable &&
    (w.memberRecord handle).minimumHeatCapacity == 0

theorem members_of_isMember (h : ∀ handle ∈ members, w.isMember handle = true) :
    w.Members members := by
  have hmember : ∀ handle ∈ members, (w.requireHandle handle).toBool = true ∧
      (w.memberRecord handle).immutable = false ∧
      (w.memberRecord handle).minimumHeatCapacity = 0 := by
    intro handle hhandle
    have hall := h handle hhandle
    simp only [isMember, Bool.and_eq_true, Bool.not_eq_true', beq_iff_eq, and_assoc] at hall
    exact hall
  exact {
    live := fun handle hhandle => memberRecord_live (hmember handle hhandle).1
    mutable := fun handle hhandle => (hmember handle hhandle).2.1
    minimum := fun handle hhandle => (hmember handle hhandle).2.2 }

/-- Ten moles of oxygen at 300 K, and an empty tank. -/
def twoTanks : DogmosWorld ℚ :=
  System.run (step (D := ℚ)) (newWithCapacities 0 0 100000 8 4)
    [.installGases [fireGas 0 "o2"],
      .applyLifecycle [⟨.register, ⟨0, 1⟩⟩, ⟨.register, ⟨1, 1⟩⟩],
      .applyCommand (.setMoles ⟨0, 1⟩ ⟨0⟩ 10) fun _ => 0,
      .applyCommand (.setTemperature ⟨0, 1⟩ 300) fun _ => 0]

theorem reconcile_pipenet_twoTanks : ∃ out w',
    run (reconcilePipenet [⟨1, 1⟩, ⟨0, 1⟩, ⟨1, 1⟩]) twoTanks = (.ok out, w') ∧
      twoTanks.Reconciled [⟨1, 1⟩, ⟨0, 1⟩, ⟨1, 1⟩].toFinset w' := by
  obtain ⟨out, hrun⟩ := exists_of_toBool (m := reconcilePipenet [⟨1, 1⟩, ⟨0, 1⟩, ⟨1, 1⟩])
    (w := twoTanks) (by decide +kernel)
  have hreachable : Reachable (D := ℚ) twoTanks :=
    System.reachable_run ⟨0, 0, 100000, 8, 4, rfl⟩ _
  have hmembers : twoTanks.Members [⟨1, 1⟩, ⟨0, 1⟩, ⟨1, 1⟩].toFinset :=
    members_of_isMember (by decide +kernel)
  have hvolume : 0 < twoTanks.pipenetVolume [⟨1, 1⟩, ⟨0, 1⟩, ⟨1, 1⟩].toFinset := by
    decide +kernel
  exact ⟨out, _, hrun, (reconcile_pipenet hreachable hmembers hvolume hrun).2.2.1⟩

/-- A plasma fire whose tritium takes up more heat than the fire releases. -/
def frozenTank : DogmosWorld ℚ :=
  System.run (step (D := ℚ)) (newWithCapacities 0 0 100000 8 4)
    [.installGases [fireGas 0 "o2", fireGas 1 "plasma", fireGas 2 "co2",
        { fireGas 3 "tritium" with specificHeat := 1000000000 }, fireGas 4 "water_vapor"],
      .installReactions [{
        id := ⟨0⟩, key := "plasmafire", priority := 1, minimumTemperature := none
        maximumTemperature := none, minimumEnergy := none, minimumFireReagents := none
        gasRequirements := [], execution := .native .plasma }],
      .applyLifecycle [⟨.register, ⟨0, 1⟩⟩],
      .applyCommand (.setMoles ⟨0, 1⟩ ⟨0⟩ 1000) fun _ => 0,
      .applyCommand (.setMoles ⟨0, 1⟩ ⟨1⟩ 10) fun _ => 0,
      .applyCommand (.setTemperature ⟨0, 1⟩ 1000) fun _ => 0,
      .reactMixture ⟨0, 1⟩ ⟨0, 1⟩ none 8 fun _ => 0]

/-- The tank is colder than the least temperature, and reconciling it alone warms it. -/
theorem reconcile_pipenet_warms : Reachable (D := ℚ) frozenTank ∧
    frozenTank.Members {⟨0, 1⟩} ∧ 0 < frozenTank.pipenetVolume {⟨0, 1⟩} ∧
    (run (reconcilePipenet [⟨0, 1⟩]) frozenTank).1.toBool = true ∧
    (∀ index : Fin maxGasSlots,
      (run (reconcilePipenet [⟨0, 1⟩]) frozenTank).2.pipenetAmount {⟨0, 1⟩} index =
        frozenTank.pipenetAmount {⟨0, 1⟩} index) ∧
    frozenTank.pipenetEnergy {⟨0, 1⟩} <
      (run (reconcilePipenet [⟨0, 1⟩]) frozenTank).2.pipenetEnergy {⟨0, 1⟩} := by
  refine ⟨System.reachable_run ⟨0, 0, 100000, 8, 4, rfl⟩ _, members_of_isMember ?_, ?_, ?_, ?_, ?_⟩
  · decide +kernel
  · decide +kernel
  · decide +kernel
  · decide +kernel
  · decide +kernel

end Worlds

end DogmosWorld

end Dogmos
