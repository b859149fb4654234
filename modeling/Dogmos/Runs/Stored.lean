import Dogmos.Runs.Batches

/-!
# What mixtures store

A property of amounts that zero has and that the writes of a world keep (`Made`) holds of all
amounts of a reachable world, in records that are visible and in candidates alike.

* `Versioned.All` — both records of a slot have a property.
* `batchClosed_stores`, `stores_of_stageStep` — requests, batches and stages keep it.
* `stores_of_reachable` — every reachable world has it.
-/

namespace Dogmos

/-! ## Slots -/

/-- The record of a slot and the candidate next to it have a property. -/
structure Versioned.All {T : Type} (P : T → Prop) (record : Versioned T) : Prop where
  current : ∀ r ∈ record.current, P r
  pending : ∀ id r, record.pending = some (id, r) → P r

namespace Versioned.All

variable {T : Type} {P : T → Prop} {record : Versioned T} {publications : Publications}
  {id : PublicationId} {r : T}

theorem asRef (h : record.All P) (hr : record.asRef publications = some r) : P r := by
  unfold Versioned.asRef at hr
  split at hr
  · next token candidate hpending =>
    split at hr
    · cases hr
      exact h.pending token r hpending
    · exact h.current r hr
  · exact h.current r hr

theorem prepared (h : record.All P) (hr : record.prepared publications id = some r) : P r := by
  unfold Versioned.prepared at hr
  rcases hcandidate : record.candidate id with _ | candidate
  · rw [hcandidate, Option.none_or] at hr
    exact h.asRef hr
  · rw [hcandidate, Option.some_or] at hr
    cases hr
    unfold Versioned.candidate at hcandidate
    split at hcandidate
    · next token found hpending =>
      split at hcandidate
      · cases hcandidate
        exact h.pending token r hpending
      · cases hcandidate
    · cases hcandidate

theorem stage (h : record.All P) (hr : P r) : (record.stage publications id r).All P := by
  refine ⟨fun s hs => ?_, fun token s hpending => ?_⟩
  · unfold Versioned.stage at hs
    split at hs
    · exact h.current s hs
    · exact h.asRef hs
  · rw [Versioned.pending_stage] at hpending
    cases hpending
    exact hr

theorem vacant : (Versioned.vacant : Versioned T).All P := ⟨nofun, nofun⟩

end Versioned.All

/-! ## Amounts -/

variable {F D : Type} [FloatFormat F]

theorem Made.mono {held held' : F → Prop} (h : ∀ a, held a → held' a) {a : F} (ha : Made held a) :
    Made held' a := by
  cases ha with
  | held ha => exact .held (h _ ha)
  | dropped a => exact .dropped a
  | removed ha ratio => exact .removed (h _ ha) ratio
  | left ha ratio => exact .left (h _ ha) ratio

/-- Every amount of a record has a property. -/
def MixtureRecord.Each (P : F → Prop) (record : MixtureRecord F) : Prop :=
  ∀ index, index < maxGasSlots → P (record.gases.at index)

namespace DogmosWorld

open Exec

/-- Every amount of every record of a world has a property. -/
def Stores (P : F → Prop) (w : DogmosWorld F) : Prop :=
  ∀ entry ∈ w.mixtures, entry.mixture.All (MixtureRecord.Each P)

variable {P : F → Prop} {w w' : DogmosWorld F}

theorem Stores.set (h : w.Stores P) {slot : Nat} {entry : MixtureSlot F}
    {publications : Publications} (hentry : entry.mixture.All (MixtureRecord.Each P)) :
    Stores P { w with mixtures := w.mixtures.set slot entry, publications } := by
  intro other hother
  rcases List.mem_or_eq_of_mem_set hother with hmem | rfl
  · exact h other hmem
  · exact hentry

theorem Stores.visible (h : w.Stores P) {slot : Nat} {record : MixtureRecord F}
    (hrecord : w.mixtureAt slot = some record) : record.Each P := by
  unfold mixtureAt at hrecord
  obtain ⟨entry, hentry, hrecord⟩ := Option.bind_eq_some_iff.1 hrecord
  exact (h entry (List.mem_of_getElem? hentry)).asRef hrecord

/-- Amounts made of amounts with the property have it. -/
theorem Licit.each (hP : ∀ a, Made P a → P a) {record : MixtureRecord F}
    (h : Licit (Stores P) record) : record.Each P := by
  intro index hindex
  refine hP _ ((h index hindex).mono ?_)
  rintro _ ⟨v, slot, r, hv, hr, other, hother, rfl⟩
  exact hv.visible hr other hother

/-! ## Requests and batches -/

theorem batchClosed_stores (hzero : P 0.0) (hP : ∀ a, Made P a → P a) :
    BatchClosed (Stores (F := F) P) where
  writeMixture w slot f hf h := by
    unfold writeMixture
    split
    · exact h
    · next entry hentry =>
      refine h.set ⟨fun record hrecord => ?_, nofun⟩
      obtain ⟨found, hfound, rfl⟩ := Option.map_eq_some_iff.1 hrecord
      refine (hf found ?_).each hP
      unfold mixtureAt
      rw [hentry]
      exact hfound
  edges _ _ _ h := h
  registries _ _ _ h := h
  configuration _ _ _ h := h
  events _ _ h := h
  settle _ _ hstep h := ContinuationClosed.settle (I := Stores P) (fun _ _ _ h => h) hstep h
  frontier _ _ h := h
  writeTurf v slot f h := by
    unfold writeTurf
    split <;> exact h
  putTurf _ _ _ _ h := h
  growTurfs _ _ h := h
  heatActive _ _ h := h
  topology _ _ h := h
  mixtureTurfs _ _ h := h
  putMixture w slot f hf h := by
    intro entry hentry
    obtain ⟨i, hi, rfl⟩ := List.mem_iff_getElem.1 hentry
    simp only [putMixture, List.getElem_modify]
    split
    · refine ⟨fun record hrecord index _ => ?_, fun id record hpending => ?_⟩
      · rw [(hf _).2 record hrecord, MixtureRecord.new, Gases.at_noGases]
        exact hzero
      · rw [(hf _).1] at hpending
        cases hpending
    · exact h _ (List.getElem_mem _)
  growMixtures w slots h := by
    have hgrown : ∀ (slots : List UInt32) (table : List (MixtureSlot F)),
        (∀ entry ∈ table, entry.mixture.All (MixtureRecord.Each P)) →
        ∀ entry ∈ growSlots table slots { generation := none, mixture := .vacant },
          entry.mixture.All (MixtureRecord.Each P) := by
      intro slots
      induction slots with
      | nil => exact fun _ h => h
      | cons slot rest ih =>
        intro table htable
        refine ih _ fun entry hentry => ?_
        rcases List.mem_append.1 hentry with hold | hnew
        · exact htable entry hold
        · rw [List.eq_of_mem_replicate hnew]
          exact .vacant
    exact hgrown slots w.mixtures h

/-! ## Stages -/

theorem Stores.stageMixture (hP : ∀ a, Made P a → P a) (h : w.Stores P)
    (hstaged : StagesMixture w w') : w'.Stores P := by
  obtain ⟨slot, id, candidate, rfl, hcandidate⟩ := hstaged
  unfold DogmosWorld.stageMixture
  split
  · exact h
  · next entry hentry =>
    have hall := h entry (List.mem_of_getElem? hentry)
    refine h.set (hall.stage ?_)
    rcases hcandidate with hcanonical | hprepared
    · exact (licit_of_canonical hcanonical).each hP
    · unfold preparedMixture at hprepared
      rw [hentry] at hprepared
      exact hall.prepared hprepared

variable [FloatFormat D]

theorem stores_of_stageStep (hP : ∀ a, Made P a → P a) (h : w.Stores P)
    (hstep : StageStep (D := D) w w') : w'.Stores P := by
  rcases (effect_of_stageStep hstep).2 with hstaged | hsame
  · exact h.stageMixture hP hstaged
  · unfold Stores
    rwa [hsame]

/-! ## Runs -/

variable [FloatCast F D]

/-- **Every amount a reachable world stores** has a property that its writes keep. -/
theorem stores_of_reachable (hzero : P 0.0) (hP : ∀ a, Made P a → P a)
    (h : Reachable (D := D) w) : w.Stores P := by
  refine reachable_induct (fun w hinit => ?_) (fun w op hw => ?_) h
  · obtain ⟨_, _, _, _, _, rfl⟩ := hinit
    exact fun _ => nofun
  · exact keeps_exec_of_batchClosed (batchClosed_stores hzero hP)
      (keeps_allocateContinuation fun _ _ _ h => h)
      (fun _ _ hstep hv => stores_of_stageStep hP hv hstep) op w hw

end DogmosWorld

end Dogmos
