import Dogmos.Runs.ReverseIndexes
import Dogmos.Runs.HeatStage
import Dogmos.Runs.Writes

/-!
# Rejected operations

A command or a batch checks before it writes, so when it is rejected everything
that can be observed is as it was.  `Refuses` says so of a computation, and it is
shown for every command, for the batches that register mixtures and turfs and for
those that write mixtures; the batches that connect turfs apply item by item and
are not meant to be like that.

`apply_turf_heat` writes the heat of a turf before it reads the mixture the turf
is linked to, and a link may name nothing any more (`Dangles`).
`rejected_unchanged` says that nothing else can go wrong, and `half_applied_heat`
is a batch that is rejected half-way.
-/

namespace Dogmos

variable {F D : Type}

/-- The operations that are meant to be applied as a whole or not at all. -/
inductive Op.IsAtomic : Op F D → Prop
  | applyLifecycle (mutations) : IsAtomic (.applyLifecycle mutations)
  | applyTurfLifecycle (mutations) : IsAtomic (.applyTurfLifecycle mutations)
  | applyTurfHeat (mutations) : IsAtomic (.applyTurfHeat mutations)
  | applyMixtureState (mutations) : IsAtomic (.applyMixtureState mutations)
  | reconcilePipenet (handles) : IsAtomic (.reconcilePipenet handles)
  | applyCommand (command clock) : IsAtomic (.applyCommand command clock)

namespace DogmosWorld

open Exec

variable {w w' v : DogmosWorld F}

/-! ## Computations that change nothing when they fail -/

/-- From `w`, the computation leaves what can be observed as it was when it fails. -/
def Refuses {α : Type} (w : DogmosWorld F) (m : WorldM F α) : Prop :=
  Triple (fun v => v = w) m (fun _ _ => True) fun _ v => SameObserved w v

section Refuses

variable {α β : Type} {m : WorldM F α}

theorem Writes.refuses {R : MixtureRecord F → MixtureRecord F → Prop} (h : Writes R w m) :
    Refuses w m :=
  triple_mono h (fun _ hv => hv) (fun _ _ _ => trivial) fun _ _ hv => hv

theorem refuses_pure (a : α) : Refuses w (pure a : WorldM F α) := triple_pure fun _ _ => trivial

theorem refuses_throw (error : WorldError) : Refuses w (throw error : WorldM F α) := by
  refine triple_throw fun v hv => ?_
  rw [hv]
  exact .refl w

theorem refuses_check_bind {g : DogmosWorld F → Except WorldError α} {f : α → WorldM F β}
    (hf : ∀ a, g w = .ok a → Refuses w (f a)) : Refuses w (Exec.check g >>= f) := by
  rintro v rfl
  rw [run_bind, run_check]
  rcases hg : g v with error | a
  · exact .refl v
  · exact hf a hg v rfl

theorem refuses_ite {c : Prop} [Decidable c] {n : WorldM F α} (hm : c → Refuses w m)
    (hn : ¬c → Refuses w n) : Refuses w (if c then m else n) := by
  split
  · exact hm ‹_›
  · exact hn ‹_›

theorem Refuses.bind_pure (h : Refuses w m) (f : α → β) : Refuses w (m >>= fun a => pure (f a)) :=
  triple_bind h fun _ => triple_pure fun _ _ => trivial

/-- A list of checks, and what follows it. -/
theorem refuses_checks_bind {μ : Type} {l : List μ} {g : μ → DogmosWorld F → Except WorldError PUnit}
    {f : PUnit → WorldM F β} (hf : Refuses w (f ⟨⟩)) :
    Refuses w (l.forM (fun a => Exec.check (g a)) >>= f) := by
  refine triple_bind (triple_forM (J := fun v => v = w) fun a _ => ?_) fun _ => hf
  refine triple_check (fun v _ hv _ => hv) fun v _ hv _ => ?_
  rw [hv]
  exact .refl w

/-- Writes that cannot fail. -/
theorem refuses_writes {μ : Type} (l : List μ) (f : μ → DogmosWorld F → DogmosWorld F) :
    Refuses w (l.forM fun a => (modify (f a) : WorldM F PUnit)) := by
  have htotal : Triple (fun _ => True) (l.forM fun a => (modify (f a) : WorldM F PUnit))
      (fun _ _ => True) fun _ v => SameObserved w v :=
    triple_forM (J := fun _ => True) fun _ _ => triple_modify fun _ _ => trivial
  exact triple_mono htotal (fun _ _ => trivial) (fun _ _ _ => trivial) fun _ _ hv => hv

theorem not_refused (h : Refuses w m) (hrejected : (m.result w).isOk = false) :
    SameObserved w (m.final w) := by
  have h := h w rfl
  unfold Exec.result at hrejected
  unfold Exec.final
  rcases hrun : run m w with ⟨error | a, v⟩
  · rw [hrun] at h
    exact h
  · rw [hrun] at hrejected
    cases hrejected

end Refuses

/-! ## Batches on mixtures -/

section Batches

variable [FloatFormat F]

theorem refuses_applyMixtureState (mutations : List (MixtureStateMutation F)) :
    Refuses w (applyMixtureState mutations) := by
  unfold applyMixtureState
  refine refuses_checks_bind ?_
  dsimp only
  split
  · exact refuses_throw _
  · exact (refuses_writes mutations _).bind_pure _

theorem refuses_reconcilePipenet (handles : List MixtureHandle) :
    Refuses w (reconcilePipenet (F := F) handles) := by
  unfold reconcilePipenet
  refine refuses_checks_bind (refuses_check_bind fun totals _ => ?_)
  refine refuses_ite (fun _ => refuses_pure _) fun _ => refuses_check_bind fun mutations _ => ?_
  exact (refuses_applyMixtureState mutations).bind_pure _

theorem refuses_applyLifecycle (mutations : List LifecycleMutation) :
    Refuses w (applyLifecycle mutations) := by
  unfold applyLifecycle
  refine refuses_check_bind fun _ _ => ?_
  intro v _
  exact trivial

omit [FloatFormat F] in
theorem refuses_applyTurfLifecycle (mutations : List TurfLifecycleMutation) :
    Refuses w (applyTurfLifecycle mutations) := by
  unfold applyTurfLifecycle rejectActiveStage
  refine refuses_check_bind fun _ _ => refuses_check_bind fun _ _ => ?_
  intro v _
  exact trivial

end Batches

/-! ## Commands -/

section Commands

variable [FloatFormat F] [FloatFormat D] [FloatCast F D]

omit [FloatFormat D] [FloatCast F D] in
/-- The rest of a sequence cannot fail once its mixture is known to be there. -/
theorem triple_writeSequence {β : Type} {E : WorldError → DogmosWorld F → Prop}
    (handle : MixtureHandle) (sequence : ReactionSequence F) (events : List (WorldEvent F)) (b : β) :
    Triple (fun v => (v.requireHandle handle).isOk = true) (do
      writeSequence handle sequence
      modify fun w => w.pushEvents (sequence.events ++ events)
      pure b) (fun _ _ => True) E := by
  intro v hv
  rcases hrecord : v.requireHandle handle with error | record
  · rw [hrecord] at hv
    cases hv
  · unfold writeSequence requireHandleMut
    by_cases hupdates : 0 < sequence.nativeUpdates
    · rw [if_pos hupdates, run_bind, run_bind, run_bind, run_check, hrecord]
      trivial
    · rw [if_neg hupdates]
      trivial

omit [FloatFormat F] in
theorem isOk_of_requireResumable {token : ReactionContinuationToken}
    {continuation : ReactionContinuation F} (h : w.requireResumable token = .ok continuation) :
    (w.requireHandle continuation.mixture).isOk = true := by
  have hrequire := requireContinuation_of_requireResumable h
  unfold requireResumable at h
  rw [hrequire] at h
  rcases hrecord : w.requireHandle continuation.mixture with error | record
  · simp [bind, Except.bind, hrecord] at h
  · rfl

theorem refuses_resumeReactionInner (token : ReactionContinuationToken)
    (reactionResult eventLimit : UInt32) (clock : Nat → F) :
    Refuses w (resumeReactionInner token reactionResult eventLimit clock) := by
  have hcomplete : Triple (fun v => v = w) (completeContinuation (F := F) token)
      (fun _ v => ∀ handle, v.requireHandle handle = w.requireHandle handle)
      fun _ v => SameObserved w v := by
    unfold completeContinuation
    rintro v rfl
    rw [run_bind, run_check]
    rcases v.requireContinuation token with error | continuation
    · exact .refl v
    · exact fun handle => rfl
  have hrotate : ∀ continuation, Triple (fun v => v = w) (rotateContinuation token continuation)
      (fun _ v => ∀ handle, v.requireHandle handle = w.requireHandle handle)
      fun _ v => SameObserved w v := by
    intro continuation
    unfold rotateContinuation
    rintro v rfl
    rw [run_bind, run_check]
    rcases v.requireContinuation token with error | continuation
    · exact .refl v
    · dsimp only
      by_cases hgeneration : token.generation = maxRevision
      · rw [if_pos hgeneration]
        exact .refl v
      · rw [if_neg hgeneration]
        exact fun handle => rfl
  unfold resumeReactionInner
  refine refuses_ite (fun _ => refuses_throw _) fun _ => ?_
  refine refuses_check_bind fun continuation hresumable => refuses_ite (fun _ => ?_) fun _ => ?_
  · exact triple_bind hcomplete fun _ => triple_pure fun _ _ => trivial
  · have hok := isOk_of_requireResumable hresumable
    have hrest : ∀ {P : DogmosWorld F → Prop} (sequence : ReactionSequence F) events,
        (∀ v, P v → ∀ handle, v.requireHandle handle = w.requireHandle handle) →
        Triple P (do
          writeSequence continuation.mixture sequence
          modify fun w => w.pushEvents (sequence.events ++ events)
          pure ((⟨sequence.flags, sequence.workItems, sequence.pending.isSome⟩ : ReactionProgress),
            sequence.nativeUpdates)) (fun _ _ => True) fun _ v => SameObserved w v := by
      intro P sequence events hP
      refine triple_mono (triple_writeSequence continuation.mixture sequence events _)
        (fun v hv => ?_) (fun _ _ hv => hv) fun _ _ hv => hv
      rw [hP v hv]
      exact hok
    refine refuses_check_bind fun sequence _ => refuses_check_bind fun _ _ => ?_
    split
    · refine triple_bind hcomplete fun _ => ?_
      rw [pure_bind]
      exact hrest _ _ fun _ hv => hv
    · refine triple_bind (hrotate _) fun _ => ?_
      rw [pure_bind]
      exact hrest _ _ fun _ hv => hv

theorem refuses_applyCommand (command : Command F) (clock : Nat → F) :
    Refuses w (applyCommand command clock) := by
  unfold applyCommand
  split
  · next token =>
    rintro v rfl
    rw [run_bind, run_get]
    exact ((refuses_resumeReactionInner token 0 v.maxEvents clock).bind_pure Prod.snd).bind_pure
      CommandResult.applied v rfl
  · refine refuses_check_bind fun result _ => ?_
    split
    · exact refuses_pure _
    · exact (writes_writeCommand w _).refuses

end Commands

/-! ## Turf heat -/

section Heat

/-- The turf is registered, and linked to something that is not. -/
def Dangles (w : DogmosWorld F) (handle : TurfHandle) : Prop :=
  ∃ turf mixture, w.requireTurfHandle handle = .ok turf ∧ turf.mixture = some mixture ∧
    ¬w.Live mixture

/-- The mutation gives heat to a turf with a dangling link. -/
def HeatsDangling (w : DogmosWorld F) (mutation : TurfHeatMutation F) : Prop :=
  mutation.state.isSome = true ∧ w.Dangles mutation.handle

/-- The same turfs are registered and linked to the same mixtures. -/
structure SameTurfs (w w' : DogmosWorld F) : Prop where
  generations : ∀ slot, w'.turfGeneration slot = w.turfGeneration slot
  links : ∀ slot, (w'.turfAt slot).map TurfRecord.mixture = (w.turfAt slot).map TurfRecord.mixture
  live : ∀ mixture, w'.Live mixture ↔ w.Live mixture

namespace SameTurfs

theorem refl (w : DogmosWorld F) : SameTurfs w w := ⟨fun _ => rfl, fun _ => rfl, fun _ => Iff.rfl⟩

theorem trans {w'' : DogmosWorld F} (h : SameTurfs w w') (h' : SameTurfs w' w'') :
    SameTurfs w w'' :=
  ⟨fun slot => (h'.generations slot).trans (h.generations slot),
    fun slot => (h'.links slot).trans (h.links slot),
    fun mixture => (h'.live mixture).trans (h.live mixture)⟩

theorem writeTurf (w : DogmosWorld F) (slot : Nat) {f : TurfRecord F → TurfRecord F}
    (hf : ∀ turf, (f turf).mixture = turf.mixture) : SameTurfs w (w.writeTurf slot f) := by
  refine ⟨fun other => turfGeneration_writeTurf .., fun other => ?_, fun mixture => ?_⟩
  · rw [turfAt_writeTurf]
    split
    · rw [Option.map_map]
      congr 1
      funext turf
      exact hf turf
    · rfl
  · unfold Live mixtureGeneration mixtureAt
    have hmixtures : (w.writeTurf slot f).mixtures = w.mixtures := by
      unfold DogmosWorld.writeTurf
      split <;> rfl
    rw [hmixtures]
    have hrecord : ∀ entry : MixtureSlot F,
        entry.mixture.asRef (w.writeTurf slot f).publications = entry.mixture.asRef w.publications :=
      fun entry => entry.mixture.asRef_congr _ fun id => visible_writeTurf w slot f id
    simp only [hrecord]

theorem of_rest (hturfs : w'.turfs = w.turfs) (hmixtures : w'.mixtures = w.mixtures)
    (hpublications : w'.publications = w.publications) : SameTurfs w w' := by
  refine ⟨fun slot => ?_, fun slot => ?_, fun mixture => ?_⟩
  · unfold turfGeneration
    rw [hturfs]
  · unfold turfAt
    rw [hturfs, hpublications]
  · unfold Live mixtureGeneration mixtureAt
    rw [hmixtures, hpublications]

theorem deactivate (w : DogmosWorld F) (slot : UInt32) :
    SameTurfs w (w.deactivateTurfHeatSlot slot) := by
  unfold deactivateTurfHeatSlot
  split
  · exact refl w
  · next index _ =>
    have hremoved : SameTurfs w { w with heatActive := swapRemove w.heatActive index.toNat } :=
      of_rest rfl rfl rfl
    refine trans ?_ (writeTurf _ _ fun _ => rfl)
    split
    · exact hremoved.trans (writeTurf _ _ fun _ => rfl)
    · exact hremoved

theorem removeHeat (w : DogmosWorld F) (slot : UInt32) :
    SameTurfs w (w.removeIncidentHeatEdges slot) := by
  unfold removeIncidentHeatEdges
  split <;> exact of_rest rfl rfl rfl

theorem requireTurfHandle (h : SameTurfs w w') {handle : TurfHandle} {turf : TurfRecord F}
    (hturf : w.requireTurfHandle handle = .ok turf) :
    ∃ turf', w'.requireTurfHandle handle = .ok turf' ∧ turf'.mixture = turf.mixture := by
  obtain ⟨hgeneration, hat⟩ := requireTurfHandle_eq_ok.1 hturf
  have hlinks := h.links handle.slot.toNat
  rw [hat, Option.map_some, Option.map_eq_some_iff] at hlinks
  obtain ⟨turf', hat', hmixture⟩ := hlinks
  exact ⟨turf', requireTurfHandle_eq_ok.2 ⟨(h.generations _).trans hgeneration, hat'⟩, hmixture⟩

theorem symm (h : SameTurfs w w') : SameTurfs w' w :=
  ⟨fun slot => (h.generations slot).symm, fun slot => (h.links slot).symm,
    fun mixture => (h.live mixture).symm⟩

theorem dangles (h : SameTurfs w w') {handle : TurfHandle} (hdangles : w.Dangles handle) :
    w'.Dangles handle := by
  obtain ⟨turf, mixture, hturf, hmixture, hgone⟩ := hdangles
  obtain ⟨turf', hturf', hsame⟩ := h.requireTurfHandle hturf
  exact ⟨turf', mixture, hturf', hsame.trans hmixture, fun hlive => hgone ((h.live mixture).1 hlive)⟩

end SameTurfs

theorem requireHandle_of_live {mixture : MixtureHandle} (h : w.Live mixture) :
    ∃ record, w.requireHandle mixture = .ok record := by
  obtain ⟨hgeneration, hat⟩ := h
  obtain ⟨record, hrecord⟩ := Option.isSome_iff_exists.1 hat
  exact ⟨record, requireHandle_eq_ok.2 ⟨hgeneration, hrecord⟩⟩

theorem requireHandle_of_not_live {mixture : MixtureHandle} (h : ¬w.Live mixture) :
    ∃ error, w.requireHandle mixture = .error error := by
  rcases hrecord : w.requireHandle mixture with error | record
  · exact ⟨error, rfl⟩
  · exact absurd (live_of_requireHandle hrecord) h

variable [FloatFormat F]

theorem activationTemperature_ok {mutation : TurfHeatMutation F} {turf : TurfRecord F}
    (hturf : w.requireTurfHandle mutation.handle = .ok turf) (hnot : ¬w.HeatsDangling mutation) :
    ∃ temperature, w.activationTemperature mutation = .ok temperature := by
  unfold activationTemperature
  rcases hstate : mutation.state with _ | state
  · exact ⟨none, rfl⟩
  · dsimp only
    unfold turfSuperconductionTemperature
    rw [hturf]
    rcases hmixture : turf.mixture with _ | mixture
    · exact ⟨_, by simp [bind, Except.bind, pure, Except.pure, hmixture]; rfl⟩
    · have hlive : w.Live mixture := by
        by_contra hgone
        refine hnot ⟨by rw [hstate]; rfl, turf, mixture, hturf, hmixture, hgone⟩
      obtain ⟨record, hrecord⟩ := requireHandle_of_live hlive
      simp only [bind, Except.bind, hmixture, hrecord]
      by_cases hgas : (record.gases.toList.any fun amount => minimumCalculatedMoles ≤ amount) = true
      · rw [if_pos hgas]
        exact ⟨_, rfl⟩
      · rw [if_neg hgas]
        exact ⟨_, rfl⟩

theorem activationTemperature_dangling {mutation : TurfHeatMutation F}
    (h : w.HeatsDangling mutation) :
    ∃ error, w.activationTemperature mutation = .error error := by
  obtain ⟨hsome, turf, mixture, hturf, hmixture, hgone⟩ := h
  obtain ⟨state, hstate⟩ := Option.isSome_iff_exists.1 hsome
  obtain ⟨error, herror⟩ := requireHandle_of_not_live hgone
  unfold activationTemperature turfSuperconductionTemperature
  refine ⟨error, ?_⟩
  simp only [hstate, bind, Except.bind, hturf, hmixture, herror]

omit [FloatFormat F] in
/-- A turf that is registered can join the active list. -/
theorem activateTurfHeat_ok (h : Indexed w.heatActive w.turfGeneration w.heatIndexAt) {handle : TurfHandle} {turf : TurfRecord F}
    (hturf : w.requireTurfHandle handle = .ok turf) :
    ∃ w', run (activateTurfHeat handle) w = (.ok ⟨⟩, w') ∧ SameTurfs w w' := by
  unfold activateTurfHeat
  rw [run_bind, run_check, hturf]
  dsimp only
  by_cases hnone : turf.heatActiveIndex.isNone = true
  · have hstored : w.heatIndexAt handle.slot = none := by
      unfold heatIndexAt storedIndex
      rw [(requireTurfHandle_eq_ok.1 hturf).2, Option.bind_some, Option.isNone_iff_eq_none.1 hnone]
      rfl
    have hlength := h.length_lt hstored
    rw [if_pos hnone, run_bind, run_get]
    dsimp only
    rw [if_neg (by omega)]
    refine ⟨_, rfl, ?_⟩
    have hlisted : SameTurfs w { w with heatActive := w.heatActive ++ [handle] } :=
      .of_rest rfl rfl rfl
    exact hlisted.trans (.writeTurf _ _ fun _ => rfl)
  · rw [if_neg hnone]
    exact ⟨w, rfl, .refl w⟩

/-- The world with the heat of a turf replaced. -/
def overwriteHeat (w : DogmosWorld F) (mutation : TurfHeatMutation F) : DogmosWorld F :=
  w.writeTurf mutation.handle.slot.toNat fun turf => { turf with heat := mutation.state }

/-- One mutation is applied as a whole unless it heats a turf with a dangling link. -/
theorem applyTurfHeatMutation_ok (h : w.HeatInOrder) {mutation : TurfHeatMutation F}
    {turf : TurfRecord F} (hturf : w.requireTurfHandle mutation.handle = .ok turf)
    (hnot : ¬w.HeatsDangling mutation) :
    ∃ w', run (applyTurfHeatMutation mutation) w = (.ok ⟨⟩, w') ∧ SameTurfs w w' := by
  have hset : SameTurfs w (w.overwriteHeat mutation) := .writeTurf w _ fun _ => rfl
  obtain ⟨turf', hturf', -⟩ := hset.requireTurfHandle hturf
  obtain ⟨temperature, htemperature⟩ := activationTemperature_ok hturf' fun hheats =>
    hnot ⟨hheats.1, hset.symm.dangles hheats.2⟩
  have hremove : ∀ v, SameTurfs w v → ∃ w', run (if mutation.state.isNone then
      modify fun w => w.removeIncidentHeatEdges mutation.handle.slot else pure ⟨⟩ : WorldM F PUnit) v =
        (.ok ⟨⟩, w') ∧ SameTurfs w w' := by
    intro v hv
    by_cases hnone : mutation.state.isNone = true
    · rw [if_pos hnone]
      exact ⟨_, rfl, hv.trans (.removeHeat v _)⟩
    · rw [if_neg hnone]
      exact ⟨v, rfl, hv⟩
  have hactivate : ∃ v, run (activateTurfHeat mutation.handle) (w.overwriteHeat mutation) =
      (.ok ⟨⟩, v) ∧ SameTurfs (w.overwriteHeat mutation) v := by
    refine activateTurfHeat_ok ?_ hturf'
    unfold overwriteHeat
    rw [heatActive_writeTurf]
    refine h.indexed.congr (fun _ _ => turfGeneration_writeTurf ..) fun other => ?_
    rw [heatIndexAt_writeTurf]
    split
    · next hother =>
      subst hother
      unfold heatIndexAt storedIndex
      rcases w.turfAt mutation.handle.slot.toNat with _ | found <;> rfl
    · rfl
  unfold applyTurfHeatMutation
  rw [run_bind, run_get]
  dsimp only
  rw [run_bind, run_modify]
  dsimp only
  unfold overwriteHeat at htemperature hactivate
  rw [run_bind, run_check, htemperature]
  dsimp only
  generalize temperature.any _ = joins
  cases joins with
  | true =>
    obtain ⟨v, hrun, hv⟩ := hactivate
    rw [if_pos rfl, run_bind, hrun]
    exact hremove v (hset.trans hv)
  | false =>
    rw [if_neg Bool.false_ne_true, run_bind, run_modify]
    exact hremove _ (hset.trans (.deactivate _ _))

/-- One mutation that heats a turf with a dangling link stops after it has written the heat. -/
theorem applyTurfHeatMutation_dangling {mutation : TurfHeatMutation F}
    (h : w.HeatsDangling mutation) :
    ∃ error, run (applyTurfHeatMutation mutation) w = (.error error, w.overwriteHeat mutation) := by
  have hset : SameTurfs w (w.overwriteHeat mutation) := .writeTurf w _ fun _ => rfl
  obtain ⟨error, herror⟩ := activationTemperature_dangling (w := w.overwriteHeat mutation)
    ⟨h.1, hset.dangles h.2⟩
  refine ⟨error, ?_⟩
  unfold applyTurfHeatMutation
  rw [run_bind, run_get]
  dsimp only
  rw [run_bind, run_modify]
  dsimp only
  rw [run_bind, run_check]
  unfold overwriteHeat at herror ⊢
  rw [herror]

/-- Mutations of registered turfs that heat none with a dangling link are all applied. -/
theorem applyTurfHeatMutations_ok (mutations : List (TurfHeatMutation F)) :
    ∀ w : DogmosWorld F, w.HeatInOrder →
      (∀ mutation ∈ mutations, ∃ turf, w.requireTurfHandle mutation.handle = .ok turf) →
      (∀ mutation ∈ mutations, ¬w.HeatsDangling mutation) →
      ∃ w', run (mutations.forM applyTurfHeatMutation) w = (.ok ⟨⟩, w') ∧ SameTurfs w w' := by
  induction mutations with
  | nil => exact fun w _ _ _ => ⟨w, rfl, .refl w⟩
  | cons mutation rest ih =>
    intro w h hturfs hnot
    obtain ⟨turf, hturf⟩ := hturfs mutation List.mem_cons_self
    obtain ⟨v, hrun, hsame⟩ := applyTurfHeatMutation_ok h hturf (hnot mutation List.mem_cons_self)
    have hv : v.HeatInOrder := by
      have hkept := keeps_heatInOrder_applyTurfHeatMutation mutation w h
      rwa [hrun] at hkept
    obtain ⟨w', hrest, hsame'⟩ := ih v hv
      (fun other hother => by
        obtain ⟨found, hfound⟩ := hturfs other (List.mem_cons_of_mem _ hother)
        obtain ⟨found', hfound', -⟩ := hsame.requireTurfHandle hfound
        exact ⟨found', hfound'⟩)
      fun other hother hheats => hnot other (List.mem_cons_of_mem _ hother)
        ⟨hheats.1, hsame.symm.dangles hheats.2⟩
    refine ⟨w', ?_, hsame.trans hsame'⟩
    rw [run_forM_cons, run_bind, hrun]
    exact hrest

/-- The checks that `apply_turf_heat` makes before it writes. -/
def ChecksHeat (w : DogmosWorld F) (mutations : List (TurfHeatMutation F)) : Prop :=
  w.stageCursor = none ∧ ∀ mutation ∈ mutations, (w.validateTurfHeat mutation).isOk = true

theorem ChecksHeat.turf {mutations : List (TurfHeatMutation F)} (h : w.ChecksHeat mutations)
    {mutation : TurfHeatMutation F} (hmutation : mutation ∈ mutations) :
    ∃ turf, w.requireTurfHandle mutation.handle = .ok turf := by
  have hok := h.2 mutation hmutation
  unfold validateTurfHeat at hok
  rcases hturf : w.requireTurfHandle mutation.handle with error | turf
  · rw [hturf] at hok
    cases hok
  · exact ⟨turf, rfl⟩

omit [FloatFormat F] in
theorem run_checks {μ : Type} (l : List μ) (g : μ → DogmosWorld F → Except WorldError PUnit) :
    ((∃ error, run (l.forM fun a => Exec.check (g a)) w = (.error error, w)) ∧
        ∃ a ∈ l, (g a w).isOk = false) ∨
      run (l.forM fun a => Exec.check (g a)) w = (.ok ⟨⟩, w) ∧ ∀ a ∈ l, (g a w).isOk = true := by
  induction l with
  | nil => exact .inr ⟨rfl, fun _ h => absurd h List.not_mem_nil⟩
  | cons a rest ih =>
    have hrun : run ((a :: rest).forM fun a => Exec.check (g a)) w =
        match g a w with
        | .ok _ => run (rest.forM fun a => Exec.check (g a)) w
        | .error error => (.error error, w) := by
      rw [run_forM_cons, run_bind, run_check]
      rcases g a w with error | value <;> rfl
    rw [hrun]
    rcases ha : g a w with error | value
    · refine .inl ⟨⟨error, rfl⟩, a, List.mem_cons_self, ?_⟩
      rw [ha]
      rfl
    · rcases ih with ⟨hfails, b, hb, hfail⟩ | ⟨hok, hall⟩
      · exact .inl ⟨hfails, b, List.mem_cons_of_mem _ hb, hfail⟩
      · refine .inr ⟨hok, fun b hb => ?_⟩
        rcases List.mem_cons.1 hb with rfl | hb
        · rw [ha]
          rfl
        · exact hall b hb

/-- A batch stops at its checks, or it applies its mutations. -/
theorem run_applyTurfHeat (mutations : List (TurfHeatMutation F)) :
    (∃ error, run (applyTurfHeat mutations) w = (.error error, w)) ∧ ¬w.ChecksHeat mutations ∨
      w.ChecksHeat mutations ∧ run (applyTurfHeat mutations) w =
        run (mutations.forM applyTurfHeatMutation >>= fun _ =>
          pure (UInt32.ofNat mutations.length)) w := by
  unfold applyTurfHeat rejectActiveStage
  rw [run_bind, run_check]
  rcases hcursor : w.stageCursor with _ | cursor
  · dsimp only [Option.isSome]
    rw [if_neg Bool.false_ne_true]
    dsimp only [pure, Except.pure]
    rw [run_bind]
    rcases run_checks (w := w) mutations fun mutation w => w.validateTurfHeat mutation with
      ⟨⟨error, herror⟩, mutation, hmutation, hfail⟩ | ⟨hok, hall⟩
    · refine .inl ⟨⟨error, by rw [herror]⟩, fun hchecks => ?_⟩
      rw [hchecks.2 mutation hmutation] at hfail
      cases hfail
    · refine .inr ⟨⟨hcursor, hall⟩, ?_⟩
      rw [hok]
  · refine .inl ⟨⟨_, rfl⟩, fun hchecks => ?_⟩
    rw [hchecks.1] at hcursor
    cases hcursor

end Heat

/-! ## Rejected operations -/

section Rejected

variable [FloatFormat F] [FloatFormat D] [FloatCast F D]

/-- The operation passes its checks and heats a turf with a dangling link. -/
def HalfApplies (w : DogmosWorld F) (op : Op F D) : Prop :=
  ∃ mutations, op = .applyTurfHeat mutations ∧ w.ChecksHeat mutations ∧
    ∃ mutation ∈ mutations, w.HeatsDangling mutation

theorem step_of_run {m : List (TurfHeatMutation F)} {n : UInt32}
    (h : run (applyTurfHeat m) w = (.ok n, w')) :
    Accepted w (.applyTurfHeat m : Op F D) ∧ step w (.applyTurfHeat m : Op F D) = w' := by
  have hrun : run (exec (.applyTurfHeat m : Op F D)) w = (.ok (), w') := by
    show run (applyTurfHeat m >>= fun _ => pure ()) w = _
    rw [run_bind, h]
    rfl
  constructor
  · unfold Accepted result
    rw [hrun]
  · unfold step final
    rw [hrun]

theorem step_of_run_error {m : List (TurfHeatMutation F)} {error : WorldError}
    (h : run (applyTurfHeat m) w = (.error error, w')) :
    ¬Accepted w (.applyTurfHeat m : Op F D) ∧ step w (.applyTurfHeat m : Op F D) = w' := by
  have hrun : run (exec (.applyTurfHeat m : Op F D)) w = (.error error, w') := by
    show run (applyTurfHeat m >>= fun _ => pure ()) w = _
    rw [run_bind, h]
  constructor
  · unfold Accepted result
    rw [hrun]
    exact fun hok => by cases hok
  · unfold step final
    rw [hrun]

/-- A batch that passes its checks and heats no turf with a dangling link is accepted. -/
theorem accepted_of_checksHeat (h : w.HeatInOrder) (mutations : List (TurfHeatMutation F))
    (hchecks : w.ChecksHeat mutations) (hnot : ∀ mutation ∈ mutations, ¬w.HeatsDangling mutation) :
    ∃ w', run (mutations.forM applyTurfHeatMutation) w = (.ok ⟨⟩, w') ∧ SameTurfs w w' ∧
      Accepted w (.applyTurfHeat mutations : Op F D) ∧
        step w (.applyTurfHeat mutations : Op F D) = w' := by
  obtain ⟨w', hrun, hsame⟩ := applyTurfHeatMutations_ok mutations w h
    (fun mutation hmutation => hchecks.turf hmutation) hnot
  refine ⟨w', hrun, hsame, ?_⟩
  rcases run_applyTurfHeat (w := w) mutations with ⟨-, hnone⟩ | ⟨-, happly⟩
  · exact absurd hchecks hnone
  · rw [run_bind, hrun] at happly
    exact step_of_run happly

theorem refused_of_not_accepted {α : Type} {m : WorldM F α} (h : Refuses w m) {op : Op F D}
    (hop : exec op = discard m) (hrejected : ¬Accepted w op) : SameObserved w (step w op) := by
  unfold step
  rw [hop, final_discard]
  refine not_refused h (Bool.eq_false_iff.2 fun hok => hrejected ?_)
  unfold Accepted result
  rw [hop]
  unfold discard
  rw [run_bind]
  unfold result at hok
  rcases hrun : run m w with ⟨error | a, v⟩
  · rw [hrun] at hok
    cases hok
  · rfl

/-- **Rejected operations** leave everything that can be observed as it was, unless they heat a
turf with a dangling link. -/
theorem sameObserved_of_rejected (h : w.HeatInOrder) {op : Op F D} (hop : op.IsAtomic)
    (hrejected : ¬Accepted w op) (hwhole : ¬w.HalfApplies op) : SameObserved w (step w op) := by
  cases hop with
  | applyLifecycle mutations => exact refused_of_not_accepted (refuses_applyLifecycle _) rfl hrejected
  | applyTurfLifecycle mutations =>
    exact refused_of_not_accepted (refuses_applyTurfLifecycle _) rfl hrejected
  | applyTurfHeat mutations =>
    rcases run_applyTurfHeat (w := w) mutations with ⟨⟨error, herror⟩, -⟩ | ⟨hchecks, -⟩
    · rw [(step_of_run_error (D := D) herror).2]
      exact .refl w
    · refine absurd ?_ hrejected
      obtain ⟨-, -, -, haccepted, -⟩ := accepted_of_checksHeat (D := D) h _ hchecks
        fun mutation hmutation hheats => hwhole ⟨mutations, rfl, hchecks, mutation, hmutation, hheats⟩
      exact haccepted
  | applyMixtureState mutations =>
    exact refused_of_not_accepted (refuses_applyMixtureState _) rfl hrejected
  | reconcilePipenet handles =>
    exact refused_of_not_accepted (refuses_reconcilePipenet _) rfl hrejected
  | applyCommand command clock =>
    exact refused_of_not_accepted (refuses_applyCommand _ _) rfl hrejected

/-- **Half of a batch**: the mutations before the first one that heats a turf with a dangling
link are applied, and the heat of that turf is written. -/
theorem half_of_halfApplies (h : w.HeatInOrder) {op : Op F D} (hhalf : w.HalfApplies op) :
    ¬Accepted w op ∧ ∃ before mutation after,
      op = .applyTurfHeat (before ++ mutation :: after) ∧ w.HeatsDangling mutation ∧
      Accepted w (.applyTurfHeat before : Op F D) ∧
      step w op = (step w (.applyTurfHeat before : Op F D)).overwriteHeat mutation := by
  classical
  obtain ⟨mutations, rfl, hchecks, found, hfound, hheats⟩ := hhalf
  obtain ⟨mutation, hfirst⟩ : ∃ mutation,
      mutations.find? (fun mutation => decide (w.HeatsDangling mutation)) = some mutation := by
    refine Option.isSome_iff_exists.1 (List.find?_isSome.2 ⟨found, hfound, ?_⟩)
    exact decide_eq_true hheats
  obtain ⟨hdangling, before, after, rfl, hbefore⟩ := List.find?_eq_some_iff_append.1 hfirst
  have hdangling := of_decide_eq_true hdangling
  have hprefix : w.ChecksHeat before :=
    ⟨hchecks.1, fun other hother => hchecks.2 other (List.mem_append_left _ hother)⟩
  obtain ⟨v, hrun, hsame, haccepted, hstep⟩ := accepted_of_checksHeat (D := D) h _ hprefix
    fun other hother hheats => by simpa [hheats] using hbefore other hother
  obtain ⟨error, hstops⟩ := applyTurfHeatMutation_dangling (w := v)
    ⟨hdangling.1, hsame.dangles hdangling.2⟩
  have hbatch : run (applyTurfHeat (before ++ mutation :: after)) w =
      (.error error, v.overwriteHeat mutation) := by
    rcases run_applyTurfHeat (w := w) (before ++ mutation :: after) with ⟨-, hnone⟩ | ⟨-, happly⟩
    · exact absurd hchecks hnone
    · rw [happly, run_bind, run_forM_stop after hstops before w hrun]
  obtain ⟨hrejected, hleft⟩ := step_of_run_error (D := D) hbatch
  exact ⟨hrejected, before, mutation, after, rfl, hdangling, haccepted, by rw [hleft, hstep]⟩

/-- A heat state that differs from the one there, when the format has a valid one. -/
theorem exists_other_state (hvalid : ∃ state : TurfHeatState F, validTurfHeatState state = true)
    (heat : Option (TurfHeatState F)) :
    ∃ state : TurfHeatState F, validTurfHeatState state = true ∧ heat ≠ some state := by
  obtain ⟨state, hstate⟩ := hvalid
  by_cases hsame : heat = some state
  · refine ⟨{ state with adjacentToSpace := !state.adjacentToSpace }, hstate, ?_⟩
    rw [hsame]
    intro heq
    have hflag := congrArg TurfHeatState.adjacentToSpace (Option.some.inj heq)
    simp at hflag
  · exact ⟨state, hstate, hsame⟩

/-- A dangling link makes a batch stop half-way. -/
theorem not_sameObserved_of_dangles
    (hvalid : ∃ state : TurfHeatState F, validTurfHeatState state = true) (h : w.HeatInOrder)
    (hcursor : w.stageCursor = none) {handle : TurfHandle} (hdangles : w.Dangles handle) :
    ∃ op : Op F D, op.IsAtomic ∧ ¬Accepted w op ∧ ¬SameObserved w (step w op) := by
  obtain ⟨turf, mixture, hturf, hmixture, hgone⟩ := hdangles
  obtain ⟨state, hstate, hother⟩ := exists_other_state hvalid turf.heat
  have hchecks : w.ChecksHeat [⟨handle, some state⟩] := by
    refine ⟨hcursor, fun mutation hmutation => ?_⟩
    cases List.mem_singleton.1 hmutation
    unfold validateTurfHeat
    simp [bind, Except.bind, hturf, hstate, pure, Except.pure, Except.isOk, Except.toBool]
  obtain ⟨hrejected, before, mutation, after, heq, -, -, hleft⟩ := half_of_halfApplies (D := D) h
    ⟨_, rfl, hchecks, _, List.mem_cons_self, rfl, turf, mixture, hturf, hmixture, hgone⟩
  refine ⟨_, .applyTurfHeat _, hrejected, fun hsame => hother ?_⟩
  have hlist := Op.applyTurfHeat.inj heq
  rcases before with _ | ⟨first, rest⟩
  · cases hlist
    have hempty : step w (.applyTurfHeat [] : Op F D) = w := by
      obtain ⟨v, hrun, -, -, hstep⟩ := accepted_of_checksHeat (D := D) h []
        ⟨hcursor, fun _ hmutation => absurd hmutation List.not_mem_nil⟩
        fun _ hmutation => absurd hmutation List.not_mem_nil
      cases hrun
      exact hstep
    have hturfs := hsame.turfs handle.slot.toNat
    rw [hleft, hempty] at hturfs
    unfold overwriteHeat at hturfs
    rw [turfAt_writeTurf, if_pos rfl, (requireTurfHandle_eq_ok.1 hturf).2] at hturfs
    exact (congrArg TurfRecord.heat (Option.some.inj hturfs)).symm
  · have hlength := congrArg List.length hlist
    simp at hlength

/-- **Rejected operations change nothing** in a world without dangling links, and in any world
when they do not heat a turf with one.  A batch that does is rejected after the mutations before
that one have been applied and its heat has been written, so a world that accepts batches of heat
rejects all operations cleanly exactly when it has no dangling link. -/
theorem rejected_unchanged (hvalid : ∃ state : TurfHeatState F, validTurfHeatState state = true)
    {w : DogmosWorld F} (hw : Reachable (D := D) w) :
    (∀ op : Op F D, op.IsAtomic → ¬Accepted w op → ¬w.HalfApplies op →
      SameObserved w (step w op)) ∧
    (∀ op : Op F D, w.HalfApplies op → ¬Accepted w op ∧ ∃ before mutation after,
      op = .applyTurfHeat (before ++ mutation :: after) ∧ w.HeatsDangling mutation ∧
      Accepted w (.applyTurfHeat before : Op F D) ∧
      step w op = (step w (.applyTurfHeat before : Op F D)).overwriteHeat mutation) ∧
    ((∀ op : Op F D, op.IsAtomic → ¬Accepted w op → SameObserved w (step w op)) ↔
      (w.stageCursor = none → ∀ handle, ¬w.Dangles handle)) := by
  have hheat := heatInOrder_of_reachable hw
  refine ⟨fun op => sameObserved_of_rejected hheat, fun op => half_of_halfApplies hheat, ?_, ?_⟩
  · intro hall hcursor handle hdangles
    obtain ⟨op, hop, hrejected, hchanged⟩ :=
      not_sameObserved_of_dangles (D := D) hvalid hheat hcursor hdangles
    exact hchanged (hall op hop hrejected)
  · intro hnone op hop hrejected
    refine sameObserved_of_rejected hheat hop hrejected ?_
    rintro ⟨mutations, -, hchecks, mutation, -, hheats⟩
    exact hnone hchecks.1 mutation.handle hheats.2

end Rejected

section HalfApplied

open FloatFormat

theorem rejected_unchanged_linkedTurf :
    SameObserved linkedTurf
      (step linkedTurf (.applyTurfLifecycle [.register ⟨1, 1⟩ none, .unregister ⟨0, 2⟩] :
        Op F32 F64)) := by
  have hreachable : Reachable (D := F64) linkedTurf :=
    System.reachable_run ⟨0, 0, 100000, 4, 4, rfl⟩ _
  obtain ⟨hunchanged, -, -⟩ := rejected_unchanged ⟨hotState, by decide +kernel⟩ hreachable
  refine hunchanged _ (.applyTurfLifecycle _) (fun haccepted => ?_) ?_
  · have herror : ((exec (.applyTurfLifecycle [.register ⟨1, 1⟩ none, .unregister ⟨0, 2⟩] :
        Op F32 F64)).result linkedTurf).toBool = false := by decide +kernel
    rw [haccepted] at herror
    cases herror
  · rintro ⟨mutations, heq, -⟩
    cases heq

/-- **A batch applied half-way**: heat for a turf with a dangling link is rejected, but the turf
has it. -/
theorem half_applied_heat : ∃ (w : DogmosWorld F32) (op : Op F32 F64),
    Reachable (D := F64) w ∧ op.IsAtomic ∧ ¬Accepted w op ∧ ¬SameObserved w (step w op) := by
  set w : DogmosWorld F32 := step (D := F64) linkedTurf (.applyLifecycle [⟨.register, ⟨0, 2⟩⟩])
    with hw
  have hreachable : Reachable (D := F64) w :=
    (System.reachable_run ⟨0, 0, 100000, 4, 4, rfl⟩ _ : Reachable (D := F64) linkedTurf).next _
      trivial
  have herror : ((exec (.applyTurfHeat [⟨⟨0, 1⟩, some hotState⟩] : Op F32 F64)).result w).toBool =
      false := by decide +kernel
  refine ⟨w, .applyTurfHeat [⟨⟨0, 1⟩, some hotState⟩], hreachable, .applyTurfHeat _,
    fun haccepted => ?_, fun hsame => ?_⟩
  · rw [haccepted] at herror
    cases herror
  · have hcold : ((w.turfAt 0).bind TurfRecord.heat).isSome = false := by decide +kernel
    have hheated : (((step w (.applyTurfHeat [⟨⟨0, 1⟩, some hotState⟩] : Op F32 F64)).turfAt 0).bind
        TurfRecord.heat).isSome = true := by decide +kernel
    rw [hsame.turfs 0, hcold] at hheated
    cases hheated

end HalfApplied

end DogmosWorld

end Dogmos
