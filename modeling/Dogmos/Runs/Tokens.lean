import Dogmos.Runs.Batches
import Dogmos.Runs.Ledger

/-!
# The tokens of a world

`ledger` reads the ledger of publication tokens off a world.  Every write of a
request or a batch and every step of a chunk does one of the things the ledger
allows, so the ledger of every reachable world is sound, and the scratch that
runs is of the kind of the stage that is under way (`tracked_of_reachable`).
-/

namespace Dogmos

namespace DogmosWorld

open Exec

variable {F D : Type}

/-- The token that scratch holds. -/
def holder (w : DogmosWorld F) : Holder → Option PublicationId
  | .running .diffusion => w.stageDiffusion.map StageDiffusionState.publication
  | .running .heat => w.stageHeat.map StageHeatState.publication
  | .running .reactions => w.stageReactions.map StageReactionState.publication
  | .running .components => w.stageComponents.map StageComponentState.publication
  | .cached .diffusion => w.cachedDiffusion.map StageDiffusionState.publication
  | .cached .heat => w.cachedHeat.map StageHeatState.publication
  | .cached .reactions => w.cachedReactions.map StageReactionState.publication
  | .cached .components => w.cachedComponents.map StageComponentState.publication

/-- Some candidate of a turf names the token. -/
def turfToken (w : DogmosWorld F) (id : PublicationId) : Prop :=
  ∃ entry ∈ w.turfs, ∃ candidate, entry.turf.pending = some (id, candidate)

/-- Some candidate of a mixture names the token. -/
def mixtureToken (w : DogmosWorld F) (id : PublicationId) : Prop :=
  ∃ entry ∈ w.mixtures, ∃ candidate, entry.mixture.pending = some (id, candidate)

/-- The ledger of publication tokens of a world. -/
def ledger (w : DogmosWorld F) : Ledger :=
  { holder := w.holder
    active := w.stageCursor.isSome
    publications := w.publications
    turfTokens := w.turfToken
    mixtureTokens := w.mixtureToken }

theorem holder_running_of_has {w : DogmosWorld F} {id : PublicationId} (h : w.tokens.Has id) :
    ∃ kind, w.holder (.running kind) = some id := by
  rcases h with h | h | h | h
  · exact ⟨.diffusion, h⟩
  · exact ⟨.heat, h⟩
  · exact ⟨.reactions, h⟩
  · exact ⟨.components, h⟩

/-- Scratch rewritten under its token leaves the holders as they are. -/
theorem holder_of_tokens {w w' : DogmosWorld F} (htokens : w'.tokens = w.tokens)
    (hcached : ∀ kind, w'.holder (.cached kind) = w.holder (.cached kind)) :
    w'.holder = w.holder := by
  funext a
  cases a with
  | cached kind => exact hcached kind
  | running kind =>
    cases kind with
    | diffusion => exact congrArg RunningTokens.diffusion htokens
    | heat => exact congrArg RunningTokens.heat htokens
    | reactions => exact congrArg RunningTokens.reactions htokens
    | components => exact congrArg RunningTokens.components htokens

/-! ## Writes to records -/

section Records

variable {w : DogmosWorld F}

/-- A record that is settled: its candidate is gone and its token invalid. -/
theorem Sound.settleTokens {l : Ledger} (h : l.Sound) {T : Type} (record : Versioned T)
    (hnamed : ∀ id candidate, record.pending = some (id, candidate) →
      ∀ kind, l.holder (.cached kind) ≠ some id) :
    Ledger.Sound { l with publications := record.settleTokens l.publications } := by
  unfold Versioned.settleTokens
  split
  · next id candidate hpending => exact h.invalidate (hnamed id candidate hpending)
  · exact h

theorem sound_writeTurf (h : w.ledger.Sound) (slot : Nat) (f : TurfRecord F → TurfRecord F) :
    (w.writeTurf slot f).ledger.Sound := by
  unfold writeTurf
  rcases hentry : w.turfs[slot]? with _ | entry
  · exact h
  · have hmem := List.mem_of_getElem? hentry
    have hsettled := Sound.settleTokens h entry.turf fun id candidate hpending =>
      h.not_cached_of_turf ⟨entry, hmem, candidate, hpending⟩
    refine hsettled.forget ?_ fun id hid => hid
    rintro id ⟨other, hother, candidate, hpending⟩
    rcases List.mem_or_eq_of_mem_set hother with hold | rfl
    · exact ⟨other, hold, candidate, hpending⟩
    · cases hpending

theorem sound_writeMixture (h : w.ledger.Sound) (slot : Nat)
    (f : MixtureRecord F → MixtureRecord F) : (w.writeMixture slot f).ledger.Sound := by
  unfold writeMixture
  rcases hentry : w.mixtures[slot]? with _ | entry
  · exact h
  · have hmem := List.mem_of_getElem? hentry
    have hsettled := Sound.settleTokens h entry.mixture fun id candidate hpending =>
      h.not_cached_of_mixture ⟨entry, hmem, candidate, hpending⟩
    refine hsettled.forget (fun id hid => hid) ?_
    rintro id ⟨other, hother, candidate, hpending⟩
    rcases List.mem_or_eq_of_mem_set hother with hold | rfl
    · exact ⟨other, hold, candidate, hpending⟩
    · cases hpending

/-- Slots put in their place, or added, without candidates. -/
theorem mem_modify_pending {α : Type} {l : List α} {n : Nat} {f : α → α} {a : α}
    (h : a ∈ l.modify n f) : a ∈ l ∨ ∃ b, a = f b := by
  obtain ⟨m, hm⟩ := List.mem_iff_getElem?.1 h
  rw [List.getElem?_modify] at hm
  rcases hold : l[m]? with _ | old
  · rw [hold] at hm
    cases hm
  · rw [hold] at hm
    by_cases heq : n = m
    · exact .inr ⟨old, by simpa [heq] using hm.symm⟩
    · have hsame : old = a := by simpa [heq] using hm
      exact .inl (hsame ▸ List.mem_of_getElem? hold)

theorem mem_growTo {α : Type} {l : List α} {n : Nat} {vacant a : α} (h : a ∈ growTo l n vacant) :
    a ∈ l ∨ a = vacant := by
  obtain ⟨m, hm⟩ := List.mem_iff_getElem?.1 h
  rw [getElem?_growTo] at hm
  split at hm
  · exact .inl (List.mem_of_getElem? hm)
  · split at hm
    · exact .inr (Option.some.inj hm).symm
    · cases hm

theorem mem_growSlots {α : Type} {slots : List UInt32} {vacant a : α} :
    ∀ {l : List α}, a ∈ growSlots l slots vacant → a ∈ l ∨ a = vacant := by
  induction slots with
  | nil => exact fun h => .inl h
  | cons slot rest ih =>
    intro l h
    rcases ih h with h | h
    · exact mem_growTo h
    · exact .inr h

theorem sound_putTurf (h : w.ledger.Sound) (slot : UInt32) (f : TurfSlot F → TurfSlot F)
    (hf : ∀ entry, (f entry).turf.pending = none) : (w.putTurf slot f).ledger.Sound := by
  refine h.forget ?_ fun id hid => hid
  rintro id ⟨other, hother, candidate, hpending⟩
  rcases mem_modify_pending hother with hold | ⟨old, rfl⟩
  · exact ⟨other, hold, candidate, hpending⟩
  · rw [hf] at hpending
    cases hpending

theorem sound_putMixture (h : w.ledger.Sound) (slot : UInt32) (f : MixtureSlot F → MixtureSlot F)
    (hf : ∀ entry, (f entry).mixture.pending = none) : (w.putMixture slot f).ledger.Sound := by
  refine h.forget (fun id hid => hid) ?_
  rintro id ⟨other, hother, candidate, hpending⟩
  rcases mem_modify_pending hother with hold | ⟨old, rfl⟩
  · exact ⟨other, hold, candidate, hpending⟩
  · rw [hf] at hpending
    cases hpending

theorem sound_growTurfs (h : w.ledger.Sound) (slots : List UInt32) :
    (ledger { w with
      turfs := growSlots w.turfs slots { generation := none, turf := .vacant } }).Sound := by
  refine h.forget ?_ fun id hid => hid
  rintro id ⟨other, hother, candidate, hpending⟩
  rcases mem_growSlots hother with hold | rfl
  · exact ⟨other, hold, candidate, hpending⟩
  · cases hpending

theorem sound_growMixtures (h : w.ledger.Sound) (slots : List UInt32) :
    (ledger { w with
      mixtures := growSlots w.mixtures slots { generation := none, mixture := .vacant } }).Sound := by
  refine h.forget (fun id hid => hid) ?_
  rintro id ⟨other, hother, candidate, hpending⟩
  rcases mem_growSlots hother with hold | rfl
  · exact ⟨other, hold, candidate, hpending⟩
  · cases hpending

/-! ## Units of work -/

/-- The tokens staging leaves differ in one that the record named. -/
theorem Sound.stageTokens {l : Ledger} (h : l.Sound) {T : Type} (record : Versioned T)
    (id : PublicationId) (hnamed : ∀ id candidate, record.pending = some (id, candidate) →
      ∀ kind, l.holder (.cached kind) ≠ some id) :
    Ledger.Sound { l with publications := record.stageTokens l.publications id } := by
  unfold Versioned.stageTokens
  split
  · exact h
  · exact Sound.settleTokens h record hnamed

theorem sound_stageMixture (h : w.ledger.Sound) (slot : Nat) {id : PublicationId}
    (candidate : MixtureRecord F) (hid : w.tokens.Has id) :
    (w.stageMixture slot id candidate).ledger.Sound := by
  obtain ⟨kind, hkind⟩ := holder_running_of_has hid
  unfold stageMixture
  rcases hentry : w.mixtures[slot]? with _ | entry
  · exact h
  · have hmem := List.mem_of_getElem? hentry
    have hstaged := Sound.stageTokens h entry.mixture id fun id candidate hpending =>
      h.not_cached_of_mixture ⟨entry, hmem, candidate, hpending⟩
    refine hstaged.nameMixture hkind ?_
    rintro other ⟨found, hfound, staged, hpending⟩
    rcases List.mem_or_eq_of_mem_set hfound with hold | rfl
    · exact .inr ⟨found, hold, staged, hpending⟩
    · rw [Versioned.pending_stage] at hpending
      cases hpending
      exact .inl rfl

theorem sound_stageTurf (h : w.ledger.Sound) (slot : Nat) {id : PublicationId}
    (candidate : TurfRecord F) (hid : w.tokens.heat = some id) :
    (w.stageTurf slot id candidate).ledger.Sound := by
  unfold stageTurf
  rcases hentry : w.turfs[slot]? with _ | entry
  · exact h
  · have hmem := List.mem_of_getElem? hentry
    have hstaged := Sound.stageTokens h entry.turf id fun id candidate hpending =>
      h.not_cached_of_turf ⟨entry, hmem, candidate, hpending⟩
    refine hstaged.nameTurf hid ?_
    rintro other ⟨found, hfound, staged, hpending⟩
    rcases List.mem_or_eq_of_mem_set hfound with hold | rfl
    · exact .inr ⟨found, hold, staged, hpending⟩
    · rw [Versioned.pending_stage] at hpending
      cases hpending
      exact .inl rfl

theorem sound_of_unitStep [FloatFormat F] {w' : DogmosWorld F} (hstep : UnitStep w w')
    (h : w.ledger.Sound) : w'.ledger.Sound := by
  have hscratch : ∀ w' : DogmosWorld F, w'.holder = w.holder →
      w'.stageCursor.isSome = w.stageCursor.isSome → w'.publications = w.publications →
      w'.turfs = w.turfs → w'.mixtures = w.mixtures → w'.ledger.Sound := by
    intro w' hholder hactive hpublications hturfs hmixtures
    have hsame : w'.ledger = w.ledger := by
      unfold ledger turfToken mixtureToken
      rw [hholder, hactive, hpublications, hturfs, hmixtures]
    rwa [hsame]
  cases hstep with
  | diffusion state htoken =>
    refine hscratch _ (holder_of_tokens ?_ fun kind => by cases kind <;> rfl) rfl rfl rfl rfl
    exact congrArg (fun id => { w.tokens with diffusion := id }) htoken.symm
  | heat state htoken =>
    refine hscratch _ (holder_of_tokens ?_ fun kind => by cases kind <;> rfl) rfl rfl rfl rfl
    exact congrArg (fun id => { w.tokens with heat := id }) htoken.symm
  | reactions state htoken =>
    refine hscratch _ (holder_of_tokens ?_ fun kind => by cases kind <;> rfl) rfl rfl rfl rfl
    exact congrArg (fun id => { w.tokens with reactions := id }) htoken.symm
  | components state htoken =>
    refine hscratch _ (holder_of_tokens ?_ fun kind => by cases kind <;> rfl) rfl rfl rfl rfl
    exact congrArg (fun id => { w.tokens with components := id }) htoken.symm
  | advance cursor nextFrontierIndex hcursor =>
    refine hscratch _ (holder_of_tokens rfl fun kind => by cases kind <;> rfl) ?_ rfl rfl rfl
    rw [hcursor]
    rfl
  | stageMixture slot id candidate hid _ => exact sound_stageMixture h slot candidate hid
  | writePreparedTurf slot id f hid hf =>
    unfold writePreparedTurf
    split
    · exact sound_stageTurf h slot _ hid
    · exact h

end Records

/-! ## Steps of chunks -/

section Steps

variable {w : DogmosWorld F}

theorem idle_of_cursor (h : w.ledger.Sound) (hcursor : w.stageCursor = none) (kind : StageKind) :
    w.holder (.running kind) = none :=
  h.idle (by show w.stageCursor.isSome = false; rw [hcursor]; rfl) kind

/-- The ledger of a world that agrees with another ledger in its parts. -/
theorem sound_of_parts {l : Ledger} (h : l.Sound) (hholder : ∀ a, w.holder a = l.holder a)
    (hactive : w.stageCursor.isSome = l.active) (hpublications : w.publications = l.publications)
    (hturf : w.turfToken = l.turfTokens) (hmixture : w.mixtureToken = l.mixtureTokens) :
    w.ledger.Sound := by
  have hsame : w.ledger = l := by
    unfold ledger
    rw [funext hholder, hactive, hpublications, hturf, hmixture]
  rwa [hsame]

/-- A stage of a kind starts with the scratch kept for it, or with new scratch. -/
theorem sound_start (h : w.ledger.Sound) (hcursor : w.stageCursor = none) (kind : StageKind)
    {w' : DogmosWorld F} {id : PublicationId} (hactive : w'.stageCursor.isSome = true)
    (hrunning : w'.holder (.running kind) = some id)
    (hothers : ∀ kind', kind' ≠ kind → w'.holder (.running kind') = none)
    (hcached : ∀ kind', w'.holder (.cached kind') =
      if kind' = kind then none else w.holder (.cached kind'))
    (hclaimed : w.holder (.cached kind) = some id ∧ w'.publications = w.publications ∨
      id = w.publications.fresh ∧ w'.publications = w.publications.withFresh)
    (hturfs : w'.turfs = w.turfs) (hmixtures : w'.mixtures = w.mixtures) : w'.ledger.Sound := by
  have hidle := idle_of_cursor h hcursor
  have hreleased := h.release (.cached kind)
  have hidle' : ∀ kind', (w.ledger.release (.cached kind)).holder (.running kind') = none :=
    fun kind' => (Ledger.holder_release_running ..).trans (hidle kind')
  have hholder : ∀ l : Ledger, l.holder = (w.ledger.release (.cached kind)).holder → ∀ a,
      w'.holder a = (Ledger.hold { l with active := true } (.running kind) id).holder a := by
    intro l hl a
    show w'.holder a = Function.update l.holder (.running kind) (some id) a
    rw [hl]
    by_cases ha : a = .running kind
    · rw [ha, Function.update_self, hrunning]
    · rw [Function.update_of_ne ha]
      cases a with
      | running kind' =>
        rw [hidle' kind']
        exact hothers kind' fun heq => ha (congrArg Holder.running heq)
      | cached kind' =>
        rw [hcached kind']
        show _ = Function.update w.holder (.cached kind) none (.cached kind')
        by_cases hkind : kind' = kind
        · rw [if_pos hkind, hkind, Function.update_self]
        · rw [if_neg hkind, Function.update_of_ne (by simpa using hkind)]
  have hturf : w'.turfToken = w.turfToken := by
    unfold turfToken
    rw [hturfs]
  have hmixture : w'.mixtureToken = w.mixtureToken := by
    unfold mixtureToken
    rw [hmixtures]
  rcases hclaimed with ⟨hid, hpublications⟩ | ⟨rfl, hpublications⟩
  · exact sound_of_parts (hreleased.start hidle' (h.free_release hid)) (hholder _ rfl) hactive
      hpublications hturf hmixture
  · exact sound_of_parts (hreleased.withFresh.start hidle' hreleased.free_fresh) (hholder _ rfl)
      hactive hpublications hturf hmixture

variable [FloatFormat F]

/-- What is left of an aborted stage: its scratch is kept for the next one. -/
theorem abortStage_eq (h : w.ledger.Sound) :
    (∀ kind, w.holder (.running kind) = none) ∧ w.abortStage = { w with stageCursor := none } ∨
      (∃ state, w.stageDiffusion = some state ∧
        w.abortStage = { w.cacheDiffusion state with stageCursor := none }) ∨
      (∃ state, w.stageHeat = some state ∧
        w.abortStage = { w.cacheHeat state with stageCursor := none }) ∨
      (∃ state, w.stageReactions = some state ∧
        w.abortStage = { w.cacheReactions state with stageCursor := none }) ∨
      ∃ state, w.stageComponents = some state ∧
        w.abortStage = { w.cacheComponents state with stageCursor := none } := by
  have hother : ∀ kind kind', (w.holder (.running kind)).isSome → kind' ≠ kind →
      w.holder (.running kind') = none := by
    intro kind kind' hkind hne
    by_contra hsome
    exact hne (h.lone kind' kind (Option.isSome_iff_ne_none.2 hsome) hkind)
  have hdiffusion : (w.stageDiffusion.map StageDiffusionState.publication = none) =
      (w.stageDiffusion = none) := by simp
  have hheat : (w.stageHeat.map StageHeatState.publication = none) = (w.stageHeat = none) := by simp
  have hreactions : (w.stageReactions.map StageReactionState.publication = none) =
      (w.stageReactions = none) := by simp
  have hcomponents : (w.stageComponents.map StageComponentState.publication = none) =
      (w.stageComponents = none) := by simp
  unfold abortStage cacheDiffusion cacheHeat cacheReactions cacheComponents withToken
  rcases hd : w.stageDiffusion with _ | state
  · rcases hh : w.stageHeat with _ | state
    · rcases hr : w.stageReactions with _ | state
      · rcases hc : w.stageComponents with _ | state
        · refine .inl ⟨fun kind => ?_, by simp only [Option.elim]⟩
          cases kind <;> simp only [holder, hd, hh, hr, hc, Option.map_none]
        · refine .inr (.inr (.inr (.inr ⟨state, rfl, ?_⟩)))
          simp only [Option.elim]
      · have hc := hother .reactions .components (by simp [holder, hr]) (by decide)
        refine .inr (.inr (.inr (.inl ⟨state, rfl, ?_⟩)))
        simp only [holder, hcomponents] at hc
        simp only [hc, Option.elim]
    · have hr := hother .heat .reactions (by simp [holder, hh]) (by decide)
      have hc := hother .heat .components (by simp [holder, hh]) (by decide)
      refine .inr (.inr (.inl ⟨state, rfl, ?_⟩))
      simp only [holder, hcomponents, hreactions] at hr hc
      simp only [hr, hc, Option.elim]
  · have hh := hother .diffusion .heat (by simp [holder, hd]) (by decide)
    have hr := hother .diffusion .reactions (by simp [holder, hd]) (by decide)
    have hc := hother .diffusion .components (by simp [holder, hd]) (by decide)
    refine .inr (.inl ⟨state, rfl, ?_⟩)
    simp only [holder, hcomponents, hreactions, hheat] at hh hr hc
    simp only [hh, hr, hc, Option.elim]

omit [FloatFormat F] in
/-- Scratch of a kind that runs is kept when its stage ends without publishing. -/
theorem sound_cache (h : w.ledger.Sound) (kind : StageKind) {id : PublicationId}
    (hid : w.holder (.running kind) = some id) {w' : DogmosWorld F}
    (hcursor : w'.stageCursor = none)
    (hholder : ∀ a, w'.holder a = ((w.ledger.release (.running kind)).withFresh.hold (.cached kind)
      w.publications.fresh).holder a)
    (hpublications : w'.publications = w.publications.withFresh) (hturfs : w'.turfs = w.turfs)
    (hmixtures : w'.mixtures = w.mixtures) : w'.ledger.Sound := by
  refine sound_of_parts ((h.cache kind).deactivate fun kind' => ?_) hholder (by rw [hcursor]; rfl)
    hpublications ?_ ?_
  · rw [Ledger.holder_hold_running]
    exact h.idle_release hid kind'
  · unfold turfToken
    rw [hturfs]
    rfl
  · unfold mixtureToken
    rw [hmixtures]
    rfl

theorem sound_abortStage (h : w.ledger.Sound) : w.abortStage.ledger.Sound := by
  rcases abortStage_eq h with ⟨hidle, heq⟩ | ⟨state, hstate, heq⟩ | ⟨state, hstate, heq⟩ |
    ⟨state, hstate, heq⟩ | ⟨state, hstate, heq⟩
  all_goals rw [heq]
  · exact h.deactivate hidle
  · refine sound_cache h .diffusion
      (by simp [holder, hstate]; rfl) rfl (fun a => ?_) rfl rfl rfl
    rcases a with (_ | _ | _ | _) | (_ | _ | _ | _) <;> rfl
  · refine sound_cache h .heat
      (by simp [holder, hstate]; rfl) rfl (fun a => ?_) rfl rfl rfl
    rcases a with (_ | _ | _ | _) | (_ | _ | _ | _) <;> rfl
  · refine sound_cache h .reactions
      (by simp [holder, hstate]; rfl) rfl (fun a => ?_) rfl rfl rfl
    rcases a with (_ | _ | _ | _) | (_ | _ | _ | _) <;> rfl
  · refine sound_cache h .components
      (by simp [holder, hstate]; rfl) rfl (fun a => ?_) rfl rfl rfl
    rcases a with (_ | _ | _ | _) | (_ | _ | _ | _) <;> rfl

omit [FloatFormat F] in
/-- A stage of a kind publishes its token and ends. -/
theorem sound_finish (h : w.ledger.Sound) (kind : StageKind) {id : PublicationId}
    (hid : w.holder (.running kind) = some id) {w' : DogmosWorld F} (hcursor : w'.stageCursor = none)
    (hholder : ∀ a, w'.holder a =
      Function.update (Function.update w.holder (.running kind) none) (.cached kind)
        (some w.publications.fresh) a)
    (hpublications : w'.publications = (w.publications.publish id).withFresh)
    (hturfs : w'.turfs = w.turfs) (hmixtures : w'.mixtures = w.mixtures) : w'.ledger.Sound := by
  refine sound_of_parts (h.finish hid) hholder (by rw [hcursor]; rfl) hpublications ?_ ?_
  · unfold turfToken
    rw [hturfs]
    rfl
  · unfold mixtureToken
    rw [hmixtures]
    rfl

omit [FloatFormat F] in
/-- Scratch that is gone takes its token with it. -/
theorem sound_drop (h : w.ledger.Sound) (b : Holder) {w' : DogmosWorld F}
    (hholder : ∀ a, w'.holder a = (w.ledger.release b).holder a)
    (hcursor : w'.stageCursor = w.stageCursor) (hpublications : w'.publications = w.publications)
    (hturfs : w'.turfs = w.turfs) (hmixtures : w'.mixtures = w.mixtures) : w'.ledger.Sound := by
  refine sound_of_parts (h.release b) hholder (by rw [hcursor]; rfl) hpublications ?_ ?_
  · unfold turfToken
    rw [hturfs]
    rfl
  · unfold mixtureToken
    rw [hmixtures]
    rfl

omit [FloatFormat F] in
/-- A component is published and the next one gets a token of its own. -/
theorem sound_nextComponent (h : w.ledger.Sound) {state : StageComponentState F}
    (hstate : w.stageComponents = some state) :
    (ledger { (w.published state.publication).withToken with
      events := w.events ++ state.stagedEvents
      stageComponents := some (publishedComponent state w.publications.fresh) }).Sound := by
  have hid : w.ledger.holder (.running .components) = some state.publication :=
    congrArg (Option.map StageComponentState.publication) hstate
  have hactive := h.active_of_running hid
  have hreleased := (h.release (.running .components)).publish (h.unheld_release hid)
  have hfresh : ((w.ledger.release (.running .components)).publish state.publication).publications.fresh =
      w.publications.fresh := Publications.length_publish _ _
  have hheld := hreleased.withFresh.hold hreleased.free_fresh (a := .running .components)
    fun kind hkind => ⟨hactive, fun kind' _ => h.idle_release hid kind'⟩
  rw [hfresh] at hheld
  refine sound_of_parts hheld (fun a => ?_) rfl rfl rfl rfl
  rcases a with (_ | _ | _ | _) | (_ | _ | _ | _) <;> rfl

variable [FloatFormat D]

theorem sound_of_stageStep {w' : DogmosWorld F} (hstep : StageStep (D := D) w w')
    (h : w.ledger.Sound) : w'.ledger.Sound := by
  cases hstep with
  | unit hunit => exact sound_of_unitStep hunit h
  | startDiffusion request hcursor hkind =>
    unfold claimed startingDiffusion
    rcases hcached : w.cachedDiffusion with _ | state
    · refine sound_start h hcursor .diffusion rfl rfl ?_ ?_ (.inr ⟨?_, rfl⟩) rfl rfl
      · exact fun kind hkind => by cases kind <;> first | exact absurd rfl hkind | rfl
      · exact fun kind => by cases kind <;> rfl
      · simp [opened, hcached, StageDiffusionState.new]
    · refine sound_start h hcursor .diffusion rfl rfl ?_ ?_ (.inl ⟨?_, rfl⟩) rfl rfl
      · exact fun kind hkind => by cases kind <;> first | exact absurd rfl hkind | rfl
      · exact fun kind => by cases kind <;> rfl
      · simp [opened, hcached, holder]
  | startHeat request hcursor hkind =>
    unfold claimed startingHeat
    rcases hcached : w.cachedHeat with _ | state
    · refine sound_start h hcursor .heat rfl rfl ?_ ?_ (.inr ⟨?_, rfl⟩) rfl rfl
      · exact fun kind hkind => by cases kind <;> first | exact absurd rfl hkind | rfl
      · exact fun kind => by cases kind <;> rfl
      · simp [opened, hcached, StageHeatState.new]
    · refine sound_start h hcursor .heat rfl rfl ?_ ?_ (.inl ⟨?_, rfl⟩) rfl rfl
      · exact fun kind hkind => by cases kind <;> first | exact absurd rfl hkind | rfl
      · exact fun kind => by cases kind <;> rfl
      · simp [opened, hcached, holder]
  | startReactions request hcursor hkind =>
    unfold claimed startingReactions
    rcases hcached : w.cachedReactions with _ | state
    · refine sound_start h hcursor .reactions rfl rfl ?_ ?_ (.inr ⟨?_, rfl⟩) rfl rfl
      · exact fun kind hkind => by cases kind <;> first | exact absurd rfl hkind | rfl
      · exact fun kind => by cases kind <;> rfl
      · simp [opened, hcached, StageReactionState.new]
    · refine sound_start h hcursor .reactions rfl rfl ?_ ?_ (.inl ⟨?_, rfl⟩) rfl rfl
      · exact fun kind hkind => by cases kind <;> first | exact absurd rfl hkind | rfl
      · exact fun kind => by cases kind <;> rfl
      · simp [opened, hcached, holder]
  | claimComponents hcursor =>
    refine sound_of_parts (h.release (.cached .components)).withFresh (fun a => ?_) rfl rfl rfl rfl
    rcases a with (_ | _ | _ | _) | (_ | _ | _ | _) <;> rfl
  | startComponents request state hcursor hkind hstate =>
    refine sound_start h hcursor .components rfl rfl ?_ ?_ (.inr ⟨hstate, rfl⟩) rfl rfl
    · exact fun kind hkind => by cases kind <;> first | exact absurd rfl hkind | rfl
    · exact fun kind => by cases kind <;> rfl
  | continuations hstep =>
    exact ContinuationClosed.continuations (I := fun w : DogmosWorld F => w.ledger.Sound)
      (fun _ _ _ h => h) hstep h
  | dropDiffusion =>
    refine sound_drop h (.running .diffusion) (fun a => ?_) rfl rfl rfl rfl
    rcases a with (_ | _ | _ | _) | (_ | _ | _ | _) <;> rfl
  | dropHeat =>
    refine sound_drop h (.running .heat) (fun a => ?_) rfl rfl rfl rfl
    rcases a with (_ | _ | _ | _) | (_ | _ | _ | _) <;> rfl
  | dropReactions =>
    refine sound_drop h (.running .reactions) (fun a => ?_) rfl rfl rfl rfl
    rcases a with (_ | _ | _ | _) | (_ | _ | _ | _) <;> rfl
  | finishDiffusion state hstate hfree =>
    refine sound_finish h .diffusion
      (congrArg (Option.map StageDiffusionState.publication) hstate) rfl (fun a => ?_) rfl rfl rfl
    rcases a with (_ | _ | _ | _) | (_ | _ | _ | _) <;>
      first | rfl | exact congrArg some (Publications.length_publish _ _)
  | finishHeat state hstate hfree =>
    refine sound_finish h .heat
      (congrArg (Option.map StageHeatState.publication) hstate) rfl (fun a => ?_) rfl rfl rfl
    rcases a with (_ | _ | _ | _) | (_ | _ | _ | _) <;>
      first | rfl | exact congrArg some (Publications.length_publish _ _)
  | finishReactions state hstate hfree events =>
    refine sound_finish h .reactions
      (congrArg (Option.map StageReactionState.publication) hstate) rfl (fun a => ?_) rfl rfl rfl
    rcases a with (_ | _ | _ | _) | (_ | _ | _ | _) <;>
      first | rfl | exact congrArg some (Publications.length_publish _ _)
  | nextComponent state hstate hfree => exact sound_nextComponent h hstate
  | finishComponents state hstate =>
    refine sound_cache h .components
      (congrArg (Option.map StageComponentState.publication) hstate) rfl (fun a => ?_) rfl rfl rfl
    rcases a with (_ | _ | _ | _) | (_ | _ | _ | _) <;> rfl
  | abort => exact sound_abortStage h

/-! ## The kind of the stage that runs -/

/-- The scratch that runs is of the kind of the stage the cursor names. -/
def Kinded (w : DogmosWorld F) : Prop :=
  ∀ kind, (w.holder (.running kind)).isSome →
    ∃ cursor, w.stageCursor = some cursor ∧ stageKind cursor.stage = kind

omit [FloatFormat F] [FloatFormat D] in
theorem Kinded.of_same {w' : DogmosWorld F} (h : w.Kinded)
    (hholder : ∀ kind, (w'.holder (.running kind)).isSome → (w.holder (.running kind)).isSome)
    (hcursor : w'.stageCursor = w.stageCursor) : w'.Kinded := by
  intro kind hkind
  rw [hcursor]
  exact h kind (hholder kind hkind)

omit [FloatFormat F] [FloatFormat D] in
theorem Kinded.of_idle (h : ∀ kind, w.holder (.running kind) = none) : w.Kinded := by
  intro kind hkind
  rw [h kind] at hkind
  cases hkind

omit [FloatFormat D] in
theorem kinded_of_unitStep {w' : DogmosWorld F} (hstep : UnitStep w w') (h : w.Kinded) :
    w'.Kinded := by
  have htoken : ∀ {α : Type} {o : Option α} {a : α}, o = some a → o.isSome := by
    rintro α o a rfl
    rfl
  cases hstep with
  | diffusion state hid =>
    refine h.of_same (fun kind hkind => ?_) rfl
    cases kind <;> first | exact htoken hid | exact hkind
  | heat state hid =>
    refine h.of_same (fun kind hkind => ?_) rfl
    cases kind <;> first | exact htoken hid | exact hkind
  | reactions state hid =>
    refine h.of_same (fun kind hkind => ?_) rfl
    cases kind <;> first | exact htoken hid | exact hkind
  | components state hid =>
    refine h.of_same (fun kind hkind => ?_) rfl
    cases kind <;> first | exact htoken hid | exact hkind
  | advance cursor nextFrontierIndex hcursor =>
    intro kind hkind
    obtain ⟨found, hfound, hstage⟩ := h kind hkind
    rw [hcursor] at hfound
    cases hfound
    exact ⟨_, rfl, hstage⟩
  | stageMixture slot id candidate hid _ =>
    unfold stageMixture
    split <;> exact h
  | writePreparedTurf slot id f hid hf =>
    unfold writePreparedTurf stageTurf
    split
    · split <;> exact h
    · exact h

/-- Where a stage ends, none runs. -/
theorem kinded_of_stageStep {w' : DogmosWorld F} (hstep : StageStep (D := D) w w')
    (hsound : w.ledger.Sound) (h : w.Kinded) : w'.Kinded := by
  have hidle : w'.stageCursor = none → w'.Kinded := fun hcursor =>
    .of_idle (idle_of_cursor (sound_of_stageStep hstep hsound) hcursor)
  cases hstep with
  | unit hunit => exact kinded_of_unitStep hunit h
  | startDiffusion request hcursor hkind =>
    unfold claimed
    split <;>
    · intro kind hsome
      refine ⟨newCursor request w.topology.revision, rfl, hkind.trans ?_⟩
      cases kind <;> first | rfl | cases hsome
  | startHeat request hcursor hkind =>
    unfold claimed
    split <;>
    · intro kind hsome
      refine ⟨newCursor request w.topology.revision, rfl, hkind.trans ?_⟩
      cases kind <;> first | rfl | cases hsome
  | startReactions request hcursor hkind =>
    unfold claimed
    split <;>
    · intro kind hsome
      refine ⟨newCursor request w.topology.revision, rfl, hkind.trans ?_⟩
      cases kind <;> first | rfl | cases hsome
  | claimComponents hcursor => exact hidle hcursor
  | startComponents request state hcursor hkind hstate =>
    intro kind hsome
    refine ⟨newCursor request w.topology.revision, rfl, hkind.trans ?_⟩
    cases kind <;> first | rfl | cases hsome
  | continuations hstep =>
    refine ContinuationClosed.continuations (I := Kinded) (fun _ _ _ hw => ?_) hstep h
    exact hw.of_same (fun _ hsome => hsome) rfl
  | dropDiffusion =>
    refine h.of_same (fun kind hsome => ?_) rfl
    cases kind <;> first | exact hsome | cases hsome
  | dropHeat =>
    refine h.of_same (fun kind hsome => ?_) rfl
    cases kind <;> first | exact hsome | cases hsome
  | dropReactions =>
    refine h.of_same (fun kind hsome => ?_) rfl
    cases kind <;> first | exact hsome | cases hsome
  | finishDiffusion state hstate hfree => exact hidle rfl
  | finishHeat state hstate hfree => exact hidle rfl
  | finishReactions state hstate hfree events => exact hidle rfl
  | nextComponent state hstate hfree =>
    refine h.of_same (fun kind hsome => ?_) rfl
    have hcomponents : (w.holder (.running .components)).isSome := by
      simp [holder, hstate]
    cases kind <;> first | exact hsome | exact hcomponents
  | finishComponents state hstate => exact hidle rfl
  | abort =>
    refine hidle ?_
    rcases abortStage_eq hsound with ⟨-, heq⟩ | ⟨state, -, heq⟩ | ⟨state, -, heq⟩ |
      ⟨state, -, heq⟩ | ⟨state, -, heq⟩ <;> rw [heq]

/-! ## Every reachable world -/

omit [FloatFormat F] [FloatFormat D] in
theorem sound_of_initial {w : DogmosWorld F} (h : Initial w) : w.ledger.Sound := by
  obtain ⟨_, _, _, _, _, rfl⟩ := h
  have hholder : ∀ mixtureSlotBytes turfSlotBytes maxWorldBytes maxEvents maxContinuations a,
      (newWithCapacities (F := F) mixtureSlotBytes turfSlotBytes maxWorldBytes maxEvents
        maxContinuations).holder a = none := by
    intro _ _ _ _ _ a
    rcases a with (_ | _ | _ | _) | (_ | _ | _ | _) <;> rfl
  constructor
  · intro kind _ hkind
    cases kind <;> cases hkind
  · exact fun _ kind => hholder ..
  · intro a b id ha
    rw [show (ledger _).holder a = none from hholder ..] at ha
    cases ha
  · intro a id ha
    rw [show (ledger _).holder a = none from hholder ..] at ha
    cases ha
  · intro a id ha
    rw [show (ledger _).holder a = none from hholder ..] at ha
    cases ha
  · intro kind id hk
    cases kind <;> cases hk
  · rintro id ⟨entry, hentry, -⟩
    cases hentry
  · rintro id ⟨entry, hentry, -⟩
    cases hentry
  · rintro id ⟨entry, hentry, -⟩
    cases hentry
  · rintro id ⟨entry, hentry, -⟩
    cases hentry

/-- The tokens are in order, and so is the kind of the scratch that runs. -/
structure Tracked (w : DogmosWorld F) : Prop where
  sound : w.ledger.Sound
  kinded : w.Kinded

omit [FloatFormat D] in
theorem batchClosed_tracked : BatchClosed (Tracked (F := F)) where
  writeMixture w slot f _ h := by
    refine ⟨sound_writeMixture h.sound slot f, h.kinded.of_same (fun kind hsome => ?_) ?_⟩
    · unfold writeMixture at hsome
      split at hsome <;> exact hsome
    · unfold writeMixture
      split <;> rfl
  edges _ _ _ h := ⟨h.sound, h.kinded⟩
  registries _ _ _ h := ⟨h.sound, h.kinded⟩
  frontier _ _ h := ⟨h.sound, h.kinded⟩
  configuration _ _ _ h := ⟨h.sound, h.kinded⟩
  events _ _ h := ⟨h.sound, h.kinded⟩
  settle _ _ := ContinuationClosed.settle fun _ _ _ h => ⟨h.sound, h.kinded⟩
  writeTurf w slot f h := by
    refine ⟨sound_writeTurf h.sound slot f, h.kinded.of_same (fun kind hsome => ?_) ?_⟩
    · unfold writeTurf at hsome
      split at hsome <;> exact hsome
    · unfold writeTurf
      split <;> rfl
  putTurf _ slot f hf h := ⟨sound_putTurf h.sound slot f hf, h.kinded⟩
  putMixture _ slot f hf h := ⟨sound_putMixture h.sound slot f fun entry => (hf entry).1, h.kinded⟩
  growTurfs _ slots h := ⟨sound_growTurfs h.sound slots, h.kinded⟩
  growMixtures _ slots h := ⟨sound_growMixtures h.sound slots, h.kinded⟩
  heatActive _ _ h := ⟨h.sound, h.kinded⟩
  topology _ _ h := ⟨h.sound, h.kinded⟩
  mixtureTurfs _ _ h := ⟨h.sound, h.kinded⟩

theorem tracked_of_stageStep {w' : DogmosWorld F} (hstep : StageStep (D := D) w w')
    (h : w.Tracked) : w'.Tracked :=
  ⟨sound_of_stageStep hstep h.sound, kinded_of_stageStep hstep h.sound h.kinded⟩

omit [FloatFormat F] [FloatFormat D] in
theorem tracked_of_initial {w : DogmosWorld F} (h : Initial w) : w.Tracked := by
  refine ⟨sound_of_initial h, .of_idle fun kind => idle_of_cursor (sound_of_initial h) ?_ kind⟩
  obtain ⟨_, _, _, _, _, rfl⟩ := h
  rfl

variable [FloatCast F D]

theorem tracked_step {w : DogmosWorld F} (h : w.Tracked) (op : Op F D) : (step w op).Tracked :=
  keeps_exec_of_batchClosed batchClosed_tracked
    (keeps_allocateContinuation fun _ _ _ h => ⟨h.sound, h.kinded⟩)
    (fun _ _ hstep h => tracked_of_stageStep hstep h)
    op w h

/-- **The tokens of every reachable world are in order.** -/
theorem tracked_of_reachable {w : DogmosWorld F} (h : Reachable (D := D) w) : w.Tracked :=
  reachable_induct (fun _ hinit => tracked_of_initial hinit) (fun _ op h => tracked_step h op) h

end Steps

end DogmosWorld

end Dogmos
