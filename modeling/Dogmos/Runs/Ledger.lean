import Dogmos.Core.Versioned
import Mathlib.Logic.Function.Basic

/-!
# The ledger of publication tokens

Who holds which publication token, and which tokens the staged candidates name.
Each kind of stage can hold two tokens, one in running scratch and one in scratch
that is kept for the next stage.  `Ledger.Sound` says that no two holders share a
token, that what is held cannot be seen, and that candidates name tokens of
running stages or tokens nobody holds any more.  It is kept by everything a world
does to its tokens:

* `Sound.release`, `Sound.hold` — a holder gives a token back, or takes a free one;
* `Sound.publish`, `Sound.withFresh`, `Sound.invalidate` — the tokens change state;
* `Sound.activate`, `Sound.deactivate` — a stage starts and ends;
* `Sound.forget`, `Sound.nameTurf`, `Sound.nameMixture` — candidates come and go.
-/

namespace Dogmos

/-- The kinds of stages that have scratch of their own. -/
inductive StageKind
  | diffusion
  | heat
  | reactions
  | components
deriving DecidableEq

/-- Who can hold a token: the running scratch of a kind, or the scratch kept for it. -/
inductive Holder
  | running (kind : StageKind)
  | cached (kind : StageKind)
deriving DecidableEq

/-- The holders, whether a stage runs, the states of the tokens, and the tokens that the
candidates of turfs and of mixtures name. -/
structure Ledger where
  holder : Holder → Option PublicationId
  active : Bool
  publications : Publications
  turfTokens : PublicationId → Prop
  mixtureTokens : PublicationId → Prop

namespace Ledger

/-- The invariant of a ledger. -/
structure Sound (l : Ledger) : Prop where
  lone : ∀ kind kind', (l.holder (.running kind)).isSome → (l.holder (.running kind')).isSome →
    kind = kind'
  idle : l.active = false → ∀ kind, l.holder (.running kind) = none
  distinct : ∀ a b id, l.holder a = some id → l.holder b = some id → a = b
  made : ∀ a id, l.holder a = some id → id < l.publications.length
  hidden : ∀ a id, l.holder a = some id → l.publications.visible id = false
  reusable : ∀ kind id, l.holder (.cached kind) = some id → l.publications.undecided id = true
  turfMade : ∀ id, l.turfTokens id → id < l.publications.length
  turfs : ∀ id, l.turfTokens id → ∀ a, l.holder a = some id → a = .running .heat
  mixtureMade : ∀ id, l.mixtureTokens id → id < l.publications.length
  mixtures : ∀ id, l.mixtureTokens id → ∀ a, l.holder a = some id → ∃ kind, a = .running kind

/-- A token that is undecided, held by nobody and named by no candidate. -/
structure Free (l : Ledger) (id : PublicationId) : Prop where
  undecided : l.publications.undecided id = true
  held : ∀ a, l.holder a ≠ some id
  turf : ¬l.turfTokens id
  mixture : ¬l.mixtureTokens id

/-- A holder gives its token back. -/
def release (l : Ledger) (a : Holder) : Ledger :=
  { l with holder := Function.update l.holder a none }

/-- A holder takes a token. -/
def hold (l : Ledger) (a : Holder) (id : PublicationId) : Ledger :=
  { l with holder := Function.update l.holder a (some id) }

/-- The next token is made. -/
def withFresh (l : Ledger) : Ledger := { l with publications := l.publications.withFresh }

/-- A token is published. -/
def publish (l : Ledger) (id : PublicationId) : Ledger :=
  { l with publications := l.publications.publish id }

/-- A token is invalidated. -/
def invalidate (l : Ledger) (id : PublicationId) : Ledger :=
  { l with publications := l.publications.invalidate id }

variable {l : Ledger}

/-! ## Holders -/

theorem holder_release {a b : Holder} {id : PublicationId}
    (h : (l.release a).holder b = some id) : b ≠ a ∧ l.holder b = some id := by
  unfold release at h
  dsimp only at h
  by_cases hb : b = a
  · subst hb
    rw [Function.update_self] at h
    cases h
  · rw [Function.update_of_ne hb] at h
    exact ⟨hb, h⟩

theorem Sound.release (h : l.Sound) (a : Holder) : (l.release a).Sound where
  lone kind kind' hk hk' := by
    obtain ⟨id, hid⟩ := Option.isSome_iff_exists.1 hk
    obtain ⟨id', hid'⟩ := Option.isSome_iff_exists.1 hk'
    refine h.lone kind kind' ?_ ?_
    · rw [(holder_release hid).2]
      rfl
    · rw [(holder_release hid').2]
      rfl
  idle hactive kind := by
    unfold Ledger.release
    dsimp only
    by_cases hkind : Holder.running kind = a
    · rw [hkind, Function.update_self]
    · rw [Function.update_of_ne hkind]
      exact h.idle hactive kind
  distinct b c id hb hc := h.distinct b c id (holder_release hb).2 (holder_release hc).2
  made b id hb := h.made b id (holder_release hb).2
  hidden b id hb := h.hidden b id (holder_release hb).2
  reusable kind id hk := h.reusable kind id (holder_release hk).2
  turfMade := h.turfMade
  turfs id hid b hb := h.turfs id hid b (holder_release hb).2
  mixtureMade := h.mixtureMade
  mixtures id hid b hb := h.mixtures id hid b (holder_release hb).2

/-- What a holder of a sound ledger gives back is free, when it was kept scratch. -/
theorem Sound.free_release (h : l.Sound) {kind : StageKind} {id : PublicationId}
    (hid : l.holder (.cached kind) = some id) : (l.release (.cached kind)).Free id where
  undecided := h.reusable kind id hid
  held b hb := by
    obtain ⟨hne, hb⟩ := holder_release hb
    exact hne (h.distinct _ _ id hb hid)
  turf hturf := by
    have := h.turfs id hturf _ hid
    cases this
  mixture hmixture := by
    obtain ⟨_, hkind⟩ := h.mixtures id hmixture _ hid
    cases hkind

theorem holder_hold {a b : Holder} {id other : PublicationId}
    (h : (l.hold a id).holder b = some other) :
    b = a ∧ other = id ∨ b ≠ a ∧ l.holder b = some other := by
  unfold hold at h
  dsimp only at h
  by_cases hb : b = a
  · subst hb
    rw [Function.update_self] at h
    exact .inl ⟨rfl, (Option.some.inj h).symm⟩
  · rw [Function.update_of_ne hb] at h
    exact .inr ⟨hb, h⟩

theorem holder_hold_running (l : Ledger) (kind kind' : StageKind) (id : PublicationId) :
    (l.hold (.cached kind) id).holder (.running kind') = l.holder (.running kind') := by
  unfold hold
  dsimp only
  rw [Function.update_of_ne (by simp)]

theorem holder_release_running (l : Ledger) (kind kind' : StageKind) :
    (l.release (.cached kind)).holder (.running kind') = l.holder (.running kind') := by
  unfold release
  dsimp only
  rw [Function.update_of_ne (by simp)]

/-- A holder may take a free token; a running one only when a stage runs and no other kind
does. -/
theorem Sound.hold (h : l.Sound) {a : Holder} {id : PublicationId} (hfree : l.Free id)
    (hrunning : ∀ kind, a = .running kind → l.active = true ∧
      ∀ kind', kind' ≠ kind → l.holder (.running kind') = none) : (l.hold a id).Sound where
  lone kind kind' hk hk' := by
    obtain ⟨other, hother⟩ := Option.isSome_iff_exists.1 hk
    obtain ⟨other', hother'⟩ := Option.isSome_iff_exists.1 hk'
    by_contra hne
    rcases holder_hold hother with ⟨hself, -⟩ | ⟨-, hheld⟩
    · rcases holder_hold hother' with ⟨hself', -⟩ | ⟨-, hheld'⟩
      · exact hne (Holder.running.inj (hself.trans hself'.symm))
      · rw [(hrunning kind hself.symm).2 kind' (Ne.symm hne)] at hheld'
        cases hheld'
    · rcases holder_hold hother' with ⟨hself', -⟩ | ⟨-, hheld'⟩
      · rw [(hrunning kind' hself'.symm).2 kind hne] at hheld
        cases hheld
      · exact hne (h.lone kind kind' (by rw [hheld]; rfl) (by rw [hheld']; rfl))
  idle hactive kind := by
    unfold Ledger.hold
    dsimp only
    by_cases hkind : Holder.running kind = a
    · exact absurd ((hrunning kind hkind.symm).1.symm.trans hactive) (by decide)
    · rw [Function.update_of_ne hkind]
      exact h.idle hactive kind
  distinct b c other hb hc := by
    rcases holder_hold hb with ⟨hself, hid⟩ | ⟨-, hheld⟩
    · rcases holder_hold hc with ⟨hself', -⟩ | ⟨-, hheld'⟩
      · exact hself.trans hself'.symm
      · exact absurd (hid ▸ hheld') (hfree.held c)
    · rcases holder_hold hc with ⟨-, hid⟩ | ⟨-, hheld'⟩
      · exact absurd (hid ▸ hheld) (hfree.held b)
      · exact h.distinct b c other hheld hheld'
  made b other hb := by
    rcases holder_hold hb with ⟨-, rfl⟩ | ⟨-, hheld⟩
    · exact Publications.lt_length_of_undecided hfree.undecided
    · exact h.made b other hheld
  hidden b other hb := by
    rcases holder_hold hb with ⟨-, rfl⟩ | ⟨-, hheld⟩
    · exact Publications.not_visible_of_undecided hfree.undecided
    · exact h.hidden b other hheld
  reusable kind other hk := by
    rcases holder_hold hk with ⟨-, rfl⟩ | ⟨-, hheld⟩
    · exact hfree.undecided
    · exact h.reusable kind other hheld
  turfMade := h.turfMade
  turfs other hother b hb := by
    rcases holder_hold hb with ⟨-, rfl⟩ | ⟨-, hheld⟩
    · exact absurd hother hfree.turf
    · exact h.turfs other hother b hheld
  mixtureMade := h.mixtureMade
  mixtures other hother b hb := by
    rcases holder_hold hb with ⟨-, rfl⟩ | ⟨-, hheld⟩
    · exact absurd hother hfree.mixture
    · exact h.mixtures other hother b hheld

/-- Scratch that is kept may hold a free token whether or not a stage runs. -/
theorem Sound.hold_cached (h : l.Sound) (kind : StageKind) {id : PublicationId} (hfree : l.Free id) :
    (l.hold (.cached kind) id).Sound :=
  h.hold hfree fun _ heq => by cases heq

/-! ## The states of the tokens -/

theorem Sound.withFresh (h : l.Sound) : l.withFresh.Sound where
  lone := h.lone
  idle := h.idle
  distinct := h.distinct
  made a id ha :=
    lt_of_lt_of_eq (Nat.lt_succ_of_lt (h.made a id ha)) (Publications.length_withFresh _).symm
  hidden a id ha := (Publications.visible_withFresh _ _).trans (h.hidden a id ha)
  reusable kind id hk := by
    show l.publications.withFresh.undecided id = true
    rw [Publications.undecided_withFresh, h.reusable kind id hk]
    rfl
  turfMade id hid :=
    lt_of_lt_of_eq (Nat.lt_succ_of_lt (h.turfMade id hid)) (Publications.length_withFresh _).symm
  turfs := h.turfs
  mixtureMade id hid :=
    lt_of_lt_of_eq (Nat.lt_succ_of_lt (h.mixtureMade id hid)) (Publications.length_withFresh _).symm
  mixtures := h.mixtures

/-- The token that was just made is free. -/
theorem Sound.free_fresh (h : l.Sound) : l.withFresh.Free l.publications.fresh where
  undecided := by
    show l.publications.withFresh.undecided _ = true
    rw [Publications.undecided_withFresh]
    simp
  held a ha := absurd (h.made a _ ha) (Nat.lt_irrefl _)
  turf hturf := absurd (h.turfMade _ hturf) (Nat.lt_irrefl _)
  mixture hmixture := absurd (h.mixtureMade _ hmixture) (Nat.lt_irrefl _)

/-- A token nobody holds may be published. -/
theorem Sound.publish (h : l.Sound) {id : PublicationId} (hheld : ∀ a, l.holder a ≠ some id) :
    (l.publish id).Sound where
  lone := h.lone
  idle := h.idle
  distinct := h.distinct
  made a other ha := lt_of_lt_of_eq (h.made a other ha) (Publications.length_publish _ _).symm
  hidden a other ha := by
    have hne : other ≠ id := fun heq => hheld a (heq ▸ ha)
    show (l.publications.publish id).visible other = false
    rw [Publications.visible_publish, h.hidden a other ha]
    simp [hne]
  reusable kind other hk := by
    have hne : other ≠ id := fun heq => hheld _ (heq ▸ hk)
    show (l.publications.publish id).undecided other = true
    rw [Publications.undecided_publish, h.reusable kind other hk]
    simp [hne]
  turfMade other ho := lt_of_lt_of_eq (h.turfMade other ho) (Publications.length_publish _ _).symm
  turfs := h.turfs
  mixtureMade other ho := lt_of_lt_of_eq (h.mixtureMade other ho) (Publications.length_publish _ _).symm
  mixtures := h.mixtures

/-- A token that no kept scratch holds may be invalidated. -/
theorem Sound.invalidate (h : l.Sound) {id : PublicationId}
    (hcached : ∀ kind, l.holder (.cached kind) ≠ some id) : (l.invalidate id).Sound where
  lone := h.lone
  idle := h.idle
  distinct := h.distinct
  made a other ha := lt_of_lt_of_eq (h.made a other ha) (Publications.length_invalidate _ _).symm
  hidden a other ha := (Publications.visible_invalidate _ _ _).trans (h.hidden a other ha)
  reusable kind other hk := by
    have hne : other ≠ id := fun heq => hcached kind (heq ▸ hk)
    show (l.publications.invalidate id).undecided other = true
    rw [Publications.undecided_invalidate, h.reusable kind other hk]
    simp [hne]
  turfMade other ho := lt_of_lt_of_eq (h.turfMade other ho) (Publications.length_invalidate _ _).symm
  turfs := h.turfs
  mixtureMade other ho := lt_of_lt_of_eq (h.mixtureMade other ho) (Publications.length_invalidate _ _).symm
  mixtures := h.mixtures

theorem Sound.not_cached_of_turf (h : l.Sound) {id : PublicationId} (hid : l.turfTokens id)
    (kind : StageKind) : l.holder (.cached kind) ≠ some id := by
  intro hk
  have := h.turfs id hid _ hk
  cases this

theorem Sound.not_cached_of_mixture (h : l.Sound) {id : PublicationId} (hid : l.mixtureTokens id)
    (kind : StageKind) : l.holder (.cached kind) ≠ some id := by
  intro hk
  obtain ⟨_, hkind⟩ := h.mixtures id hid _ hk
  cases hkind

/-! ## Starts and ends of stages -/

theorem Sound.activate (h : l.Sound) : Sound { l with active := true } :=
  { h with idle := fun hactive => by cases hactive }

theorem Sound.deactivate (h : l.Sound) (hidle : ∀ kind, l.holder (.running kind) = none) :
    Sound { l with active := false } :=
  { h with idle := fun _ => hidle }

theorem Sound.active_of_running (h : l.Sound) {kind : StageKind} {id : PublicationId}
    (hid : l.holder (.running kind) = some id) : l.active = true := by
  by_contra hactive
  rw [Bool.not_eq_true] at hactive
  rw [h.idle hactive kind] at hid
  cases hid

/-- A stage starts with a token that is free. -/
theorem Sound.start (h : l.Sound) (hidle : ∀ kind, l.holder (.running kind) = none)
    {kind : StageKind} {id : PublicationId} (hfree : l.Free id) :
    (Ledger.hold { l with active := true } (.running kind) id).Sound := by
  have hactive := h.activate
  refine hactive.hold ⟨hfree.undecided, hfree.held, hfree.turf, hfree.mixture⟩ fun kind' _ => ?_
  exact ⟨rfl, fun other _ => hidle other⟩

/-- Scratch that is kept after its stage gets a token of its own. -/
theorem Sound.cache (h : l.Sound) (kind : StageKind) :
    ((l.release (.running kind)).withFresh.hold (.cached kind) l.publications.fresh).Sound :=
  (h.release _).withFresh.hold_cached kind (h.release (.running kind)).free_fresh

/-- Once the only kind that runs gives its token back, none runs. -/
theorem Sound.idle_release (h : l.Sound) {kind : StageKind} {id : PublicationId}
    (hid : l.holder (.running kind) = some id) (kind' : StageKind) :
    (l.release (.running kind)).holder (.running kind') = none := by
  rcases hheld : (l.release (.running kind)).holder (.running kind') with _ | other
  · rfl
  · obtain ⟨hne, hheld⟩ := holder_release hheld
    have := h.lone kind' kind (by rw [hheld]; rfl) (by rw [hid]; rfl)
    exact absurd (congrArg Holder.running this) hne

/-- What a running stage gave back is held by nobody. -/
theorem Sound.unheld_release (h : l.Sound) {a : Holder} {id : PublicationId}
    (hid : l.holder a = some id) (b : Holder) : (l.release a).holder b ≠ some id := by
  intro hb
  obtain ⟨hne, hb⟩ := holder_release hb
  exact hne (h.distinct b a id hb hid)

/-- A stage publishes its token and its scratch is kept. -/
theorem Sound.finish (h : l.Sound) {kind : StageKind} {id : PublicationId}
    (hid : l.holder (.running kind) = some id) :
    Sound { ((l.release (.running kind)).publish id).withFresh.hold (.cached kind)
      l.publications.fresh with active := false } := by
  have hreleased := (h.release (.running kind)).publish (h.unheld_release hid)
  have hfresh : ((l.release (.running kind)).publish id).publications.fresh =
      l.publications.fresh := Publications.length_publish _ _
  have hkept := hreleased.withFresh.hold_cached kind hreleased.free_fresh
  rw [hfresh] at hkept
  refine hkept.deactivate fun kind' => ?_
  rw [holder_hold_running]
  exact h.idle_release hid kind'

/-! ## Candidates -/

/-- Candidates that go, or that name tokens which were named before. -/
theorem Sound.forget (h : l.Sound) {turfTokens mixtureTokens : PublicationId → Prop}
    (hturf : ∀ id, turfTokens id → l.turfTokens id)
    (hmixture : ∀ id, mixtureTokens id → l.mixtureTokens id) :
    Sound { l with turfTokens, mixtureTokens } :=
  { h with
    turfMade := fun id hid => h.turfMade id (hturf id hid)
    turfs := fun id hid => h.turfs id (hturf id hid)
    mixtureMade := fun id hid => h.mixtureMade id (hmixture id hid)
    mixtures := fun id hid => h.mixtures id (hmixture id hid) }

/-- A candidate of a turf under the token of the running heat stage. -/
theorem Sound.nameTurf (h : l.Sound) {token : PublicationId}
    (htoken : l.holder (.running .heat) = some token) {turfTokens : PublicationId → Prop}
    (hturf : ∀ id, turfTokens id → id = token ∨ l.turfTokens id) :
    Sound { l with turfTokens } :=
  { h with
    turfMade := fun id hid => (hturf id hid).elim (fun heq => heq ▸ h.made _ _ htoken)
      (h.turfMade id)
    turfs := fun id hid a ha => (hturf id hid).elim
      (fun heq => h.distinct a _ token (heq ▸ ha) htoken) fun hid => h.turfs id hid a ha }

/-- A candidate of a mixture under the token of a running stage. -/
theorem Sound.nameMixture (h : l.Sound) {kind : StageKind} {token : PublicationId}
    (htoken : l.holder (.running kind) = some token) {mixtureTokens : PublicationId → Prop}
    (hmixture : ∀ id, mixtureTokens id → id = token ∨ l.mixtureTokens id) :
    Sound { l with mixtureTokens } :=
  { h with
    mixtureMade := fun id hid => (hmixture id hid).elim (fun heq => heq ▸ h.made _ _ htoken)
      (h.mixtureMade id)
    mixtures := fun id hid a ha => (hmixture id hid).elim
      (fun heq => ⟨kind, h.distinct a _ token (heq ▸ ha) htoken⟩) fun hid => h.mixtures id hid a ha }

end Ledger

end Dogmos
