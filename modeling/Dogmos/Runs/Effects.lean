import Dogmos.Runs.Writes

/-!
# What commands leave

A command that succeeds rewrites the records of the mixtures it names and no others.
`SingleEffect` and `PairEffect` say so of the worlds before and after, with the records on both
sides, and each command on mixtures has one lemma that gives its records: the numbers it writes
are computed from the records it found.

* `triple_mutateMixture_effect`, `triple_writePair` — the two ways commands write.
* `triple_mergeMixtures`, `triple_transferGases`, `triple_transferRatioTo`, `triple_shareRatio`
  and their like — the commands.
-/

namespace Dogmos

open Exec

namespace DogmosWorld

variable {F D : Type}

/-! ## Effects -/

/-- One mixture was rewritten. -/
structure SingleEffect (w v : DogmosWorld F) (handle : MixtureHandle)
    (before after : MixtureRecord F) : Prop where
  found : w.requireHandle handle = .ok before
  left : v.requireHandle handle = .ok after
  others : ∀ (other : MixtureHandle) (record : MixtureRecord F), other.slot ≠ handle.slot →
    (v.requireHandle other = .ok record ↔ w.requireHandle other = .ok record)

/-- Two mixtures were rewritten. -/
structure PairEffect (w v : DogmosWorld F) (first second : MixtureHandle)
    (firstBefore secondBefore firstAfter secondAfter : MixtureRecord F) : Prop where
  foundFirst : w.requireHandle first = .ok firstBefore
  foundSecond : w.requireHandle second = .ok secondBefore
  leftFirst : v.requireHandle first = .ok firstAfter
  leftSecond : v.requireHandle second = .ok secondAfter
  others : ∀ (other : MixtureHandle) (record : MixtureRecord F), other.slot ≠ first.slot →
    other.slot ≠ second.slot →
    (v.requireHandle other = .ok record ↔ w.requireHandle other = .ok record)

variable {w v : DogmosWorld F} {handle first second : MixtureHandle}

theorem SameObserved.requireHandle_iff (h : SameObserved w v) (other : MixtureHandle)
    (record : MixtureRecord F) :
    v.requireHandle other = .ok record ↔ w.requireHandle other = .ok record := by
  rw [requireHandle_eq_ok, requireHandle_eq_ok, h.mixtures, h.generations]

/-- Nothing was rewritten. -/
theorem SameObserved.pairEffect {f s : MixtureRecord F} (h : SameObserved w v)
    (hfirst : w.requireHandle first = .ok f) (hsecond : w.requireHandle second = .ok s) :
    PairEffect w v first second f s f s :=
  ⟨hfirst, hsecond, h.requireHandle first hfirst, h.requireHandle second hsecond,
    fun other record _ _ => h.requireHandle_iff other record⟩

/-- Two handles that both name mixtures share no slot. -/
theorem slot_ne_of_requireHandle {f s : MixtureRecord F} (hne : first ≠ second)
    (hfirst : w.requireHandle first = .ok f) (hsecond : w.requireHandle second = .ok s) :
    first.slot ≠ second.slot := by
  intro hslot
  have hgeneration := (requireHandle_eq_ok.1 hfirst).1
  rw [hslot, (requireHandle_eq_ok.1 hsecond).1, Option.some.injEq] at hgeneration
  cases first
  cases second
  cases hslot
  cases hgeneration
  exact hne rfl

/-- A mixture rewritten in place. -/
theorem requireHandle_writeMixture_iff {f : MixtureRecord F → MixtureRecord F}
    (other : MixtureHandle) (record : MixtureRecord F) (hne : other.slot ≠ handle.slot) :
    (w.writeMixture handle.slot.toNat f).requireHandle other = .ok record ↔
      w.requireHandle other = .ok record := by
  rw [requireHandle_eq_ok, requireHandle_eq_ok, mixtureGeneration_writeMixture,
    mixtureAt_writeMixture, if_neg fun heq => hne (UInt32.toNat_inj.1 heq)]

theorem requireHandle_writeMixture_self {f : MixtureRecord F → MixtureRecord F}
    {record : MixtureRecord F} (h : w.requireHandle handle = .ok record) :
    (w.writeMixture handle.slot.toNat f).requireHandle handle = .ok (f record) := by
  rw [requireHandle_eq_ok] at h ⊢
  rw [mixtureGeneration_writeMixture, mixtureAt_writeMixture, if_pos rfl, h.2]
  exact ⟨h.1, rfl⟩

theorem SingleEffect.of_writeMixture {f : MixtureRecord F → MixtureRecord F}
    {record : MixtureRecord F} {settled : DogmosWorld F} (hsettled : SameObserved w settled)
    (h : w.requireHandle handle = .ok record) :
    SingleEffect w (settled.writeMixture handle.slot.toNat f) handle record (f record) := by
  refine ⟨h, requireHandle_writeMixture_self (hsettled.requireHandle handle h), ?_⟩
  intro other found hne
  rw [requireHandle_writeMixture_iff other found hne, hsettled.requireHandle_iff]

/-- What a mutation leaves. -/
theorem triple_mutateMixture_effect [FloatFormat F]
    {mutation : MixtureRecord F → Bool × MixtureRecord F} :
    Triple (fun v => v = w) (mutateMixture handle mutation)
      (fun updated v => ∃ record, updated = (mutation record).1 ∧
        SingleEffect w v handle record (mutated (mutation record)))
      fun _ v => SameObserved w v := by
  unfold mutateMixture requireHandleMut
  rintro v rfl
  rw [run_bind, run_bind, run_check]
  rcases hrecord : v.requireHandle handle with error | record
  · exact .refl v
  · dsimp only
    rw [run_bind, run_modify]
    dsimp only
    rw [run_pure]
    dsimp only
    have hsettled := SameObserved.settle v handle.slot.toNat
    by_cases hrevision : record.revision = maxRevision
    · rw [if_pos hrevision]
      exact hsettled
    · rw [if_neg hrevision, run_bind, run_modify]
      exact ⟨record, rfl, .of_writeMixture hsettled hrecord⟩

/-- What a pair of writes leaves. -/
theorem triple_writePair {firstAfter secondAfter : Option (MixtureRecord F)} :
    Triple (fun v => v = w) (writePair first second firstAfter secondAfter)
      (fun _ v => ∃ f s, PairEffect w v first second f s (firstAfter.getD f) (secondAfter.getD s))
      fun _ v => SameObserved w v := by
  unfold writePair requireTwoHandlesMut
  rintro v rfl
  rw [run_bind, run_bind, run_check]
  rcases hfirst : v.requireHandle first with error | f
  · exact .refl v
  · dsimp only
    rw [run_bind, run_check]
    rcases hsecond : v.requireHandle second with error | s
    · exact .refl v
    · dsimp only
      by_cases hslot : first.slot = second.slot
      · rw [if_pos hslot]
        exact .refl v
      · rw [if_neg hslot, run_bind, run_modify]
        dsimp only
        rw [run_pure]
        dsimp only
        rw [run_modify]
        dsimp only
        have hsettled := (SameObserved.settle v first.slot.toNat).trans
          (.settle _ second.slot.toNat)
        generalize (v.writeMixture first.slot.toNat fun record => record).writeMixture
          second.slot.toNat (fun record => record) = settled at hsettled ⊢
        have hone : SingleEffect v _ first f (firstAfter.getD f) :=
          @SingleEffect.of_writeMixture _ _ _ (fun record => firstAfter.getD record) _ _ hsettled
            hfirst
        have hkept := (hone.others second s (Ne.symm hslot)).2 hsecond
        refine ⟨f, s, hfirst, hsecond, ?_, requireHandle_writeMixture_self hkept, ?_⟩
        · rw [requireHandle_writeMixture_iff first _ hslot]
          exact hone.left
        · intro other record hnotFirst hnotSecond
          rw [requireHandle_writeMixture_iff other _ hnotSecond]
          exact hone.others other record hnotFirst

/-! ## What success leaves -/

/-- From `w`, a computation that succeeds leaves a result and a world that meet `Q`. -/
def Leaves {α : Type} (w : DogmosWorld F) (m : WorldM F α) (Q : α → DogmosWorld F → Prop) : Prop :=
  ∀ a v, run m w = (.ok a, v) → Q a v

section Leaves

variable {α β : Type} {Q : α → DogmosWorld F → Prop}

theorem leaves_of_triple {m : WorldM F α} {E : WorldError → DogmosWorld F → Prop}
    (h : Triple (fun v => v = w) m Q E) : Leaves w m Q := by
  intro a v hrun
  have hpost := h w rfl
  rwa [hrun] at hpost

theorem leaves_pure {a : α} (h : Q a w) : Leaves w (pure a) Q := by
  intro b v hrun
  cases hrun
  exact h

theorem leaves_throw (error : WorldError) : Leaves w (throw error : WorldM F α) Q := by
  intro a v hrun
  cases hrun

theorem leaves_check_bind {g : DogmosWorld F → Except WorldError β} {f : β → WorldM F α}
    (h : ∀ b, g w = .ok b → Leaves w (f b) Q) : Leaves w (check g >>= f) Q := by
  intro a v hrun
  rw [run_bind, run_check] at hrun
  rcases hg : g w with error | b
  · rw [hg] at hrun
    cases hrun
  · rw [hg] at hrun
    exact h b hg a v hrun

theorem leaves_ite {c : Prop} [Decidable c] {m n : WorldM F α} (hm : c → Leaves w m Q)
    (hn : ¬c → Leaves w n Q) : Leaves w (if c then m else n) Q := by
  split
  · exact hm ‹_›
  · exact hn ‹_›

theorem leaves_bind {R : β → DogmosWorld F → Prop} {m : WorldM F β} {f : β → WorldM F α}
    (hm : Leaves w m R) (hf : ∀ b v, R b v → Leaves v (f b) Q) : Leaves w (m >>= f) Q := by
  intro a v hrun
  rw [run_bind] at hrun
  rcases hfirst : run m w with ⟨error | b, u⟩
  · rw [hfirst] at hrun
    cases hrun
  · rw [hfirst] at hrun
    exact hf b u (hm b u hfirst) a v hrun

theorem leaves_get_bind {f : DogmosWorld F → WorldM F α} (h : Leaves w (f w) Q) :
    Leaves w (get >>= f) Q := by
  intro a v hrun
  rw [run_bind, run_get] at hrun
  exact h a v hrun

theorem leaves_modify {g : DogmosWorld F → DogmosWorld F} {R : PUnit → DogmosWorld F → Prop}
    (h : R ⟨⟩ (g w)) : Leaves w (modify g) R := by
  intro a v hrun
  rw [run_modify] at hrun
  cases hrun
  exact h

theorem leaves_modify_bind {g : DogmosWorld F → DogmosWorld F} {f : PUnit → WorldM F α}
    (h : Leaves (g w) (f ⟨⟩) Q) : Leaves w (modify g >>= f) Q := by
  intro a v hrun
  rw [run_bind, run_modify] at hrun
  exact h a v hrun

theorem leaves_bind_pure {m : WorldM F β} {f : β → α} (h : Leaves w m fun b v => Q (f b) v) :
    Leaves w (m >>= fun b => pure (f b)) Q :=
  leaves_bind h fun _ _ hv => leaves_pure hv

theorem leaves_mono {R : α → DogmosWorld F → Prop} {m : WorldM F α} (h : Leaves w m R)
    (hmono : ∀ a v, R a v → Q a v) : Leaves w m Q :=
  fun a v hrun => hmono a v (h a v hrun)

/-- A command that is not only read. -/
theorem leaves_applyCommand {D : Type} [FloatFormat F] [FloatFormat D] [FloatCast F D]
    {command : Command F} {clock : Nat → F} {Q : CommandResult F → DogmosWorld F → Prop}
    (hresume : ∀ continuation, command ≠ .resumeReaction continuation)
    (hread : w.readCommand command = .ok none) (h : Leaves w (writeCommand (D := D) command) Q) :
    Leaves w (applyCommand (D := D) command clock) Q := by
  unfold applyCommand
  split
  · next continuation => exact absurd rfl (hresume continuation)
  · refine leaves_check_bind fun result hresult => ?_
    rw [hread] at hresult
    cases hresult
    exact h

end Leaves

end DogmosWorld

end Dogmos
