import Dogmos.Runs.Live

/-!
# What commands write

A command checks before it writes: when it fails, everything that can be observed
is as it was (`SameObserved`), and when it succeeds, each record has changed by
steps of a relation `R` or not at all (`Evolves R`).  `Writes R w m` says so of a
computation that starts in `w`, and `writes_mutate` and `writes_pair` are the two
rules commands on one and on two mixtures need.

The relation here is `Revision`: a write raises the revision of a mutable record,
or it leaves the revision and writes amounts that count as equal
(`writes_writeCommand`).  Two kinds of writes do neither: an addition can clear a
trace amount it does not change otherwise, and a record that is immutable counts
as changed when one of its numbers does not equal itself.
-/

namespace Dogmos

open Exec

variable {F D : Type}

namespace DogmosWorld

variable {w w' w'' v : DogmosWorld F}

/-- What can be observed is the same: the visible records, and everything that is no record. -/
structure SameObserved (w w' : DogmosWorld F) : Prop where
  mixtures : ∀ slot, w'.mixtureAt slot = w.mixtureAt slot
  generations : ∀ slot, w'.mixtureGeneration slot = w.mixtureGeneration slot
  turfs : ∀ slot, w'.turfAt slot = w.turfAt slot
  turfGenerations : ∀ slot, w'.turfGeneration slot = w.turfGeneration slot
  rest : w' = { w with
    mixtures := w'.mixtures, turfs := w'.turfs, publications := w'.publications }

namespace SameObserved

theorem refl (w : DogmosWorld F) : SameObserved w w :=
  ⟨fun _ => rfl, fun _ => rfl, fun _ => rfl, fun _ => rfl, rfl⟩

theorem trans (h : SameObserved w w') (h' : SameObserved w' w'') : SameObserved w w'' := by
  refine ⟨fun slot => (h'.mixtures slot).trans (h.mixtures slot),
    fun slot => (h'.generations slot).trans (h.generations slot),
    fun slot => (h'.turfs slot).trans (h.turfs slot),
    fun slot => (h'.turfGenerations slot).trans (h.turfGenerations slot), ?_⟩
  rw [h'.rest, h.rest]

/-- A write of what is there already. -/
theorem writeMixture (w : DogmosWorld F) (slot : Nat) {f : MixtureRecord F → MixtureRecord F}
    (hf : ∀ record, w.mixtureAt slot = some record → f record = record) :
    SameObserved w (w.writeMixture slot f) := by
  refine ⟨fun other => ?_, fun other => mixtureGeneration_writeMixture .., fun other => ?_,
    fun other => ?_, ?_⟩
  · rw [mixtureAt_writeMixture]
    split
    · next hother =>
      subst hother
      rcases hrecord : w.mixtureAt other with _ | record
      · rfl
      · rw [Option.map_some, hf record hrecord]
    · rfl
  · unfold turfAt
    rw [turfs_writeMixture]
    congr 1
    funext entry
    exact entry.turf.asRef_congr _ fun id => visible_writeMixture w slot f id
  · unfold turfGeneration
    rw [turfs_writeMixture]
  · unfold DogmosWorld.writeMixture
    split <;> rfl

theorem settle (w : DogmosWorld F) (slot : Nat) :
    SameObserved w (w.writeMixture slot fun record => record) :=
  writeMixture w slot fun _ _ => rfl

theorem requireHandle (h : SameObserved w w') (handle : MixtureHandle) {record : MixtureRecord F}
    (hrecord : w.requireHandle handle = .ok record) : w'.requireHandle handle = .ok record := by
  rw [requireHandle_eq_ok] at hrecord ⊢
  rw [h.mixtures, h.generations]
  exact hrecord

end SameObserved

/-! ## Records that evolve -/

/-- The same slots hold records, and each record changed by steps of a relation. -/
structure Evolves (R : MixtureRecord F → MixtureRecord F → Prop) (w w' : DogmosWorld F) : Prop where
  generations : ∀ slot, w'.mixtureGeneration slot = w.mixtureGeneration slot
  records : ∀ slot, Option.Rel (Relation.ReflTransGen R) (w.mixtureAt slot) (w'.mixtureAt slot)

section Evolves

variable {R : MixtureRecord F → MixtureRecord F → Prop}

theorem rel_refl (record : Option (MixtureRecord F)) :
    Option.Rel (Relation.ReflTransGen R) record record := by
  cases record with
  | none => exact .none
  | some record => exact .some .refl

namespace Evolves

theorem refl (w : DogmosWorld F) : Evolves R w w := ⟨fun _ => rfl, fun _ => rel_refl _⟩

theorem trans (h : Evolves R w w') (h' : Evolves R w' w'') : Evolves R w w'' := by
  refine ⟨fun slot => (h'.generations slot).trans (h.generations slot), fun slot => ?_⟩
  have hfirst := h.records slot
  have hsecond := h'.records slot
  generalize w.mixtureAt slot = before at hfirst
  generalize w'.mixtureAt slot = between at hfirst hsecond
  generalize w''.mixtureAt slot = after at hsecond
  cases hfirst with
  | none => exact hsecond
  | some hsteps =>
    cases hsecond with
    | some hmore => exact .some (hsteps.trans hmore)

theorem of_same (hmixtures : ∀ slot, w'.mixtureAt slot = w.mixtureAt slot)
    (hgenerations : ∀ slot, w'.mixtureGeneration slot = w.mixtureGeneration slot) :
    Evolves R w w' :=
  ⟨hgenerations, fun slot => hmixtures slot ▸ rel_refl _⟩

theorem of_sameObserved (h : SameObserved w w') : Evolves R w w' :=
  of_same h.mixtures h.generations

theorem writeMixture (w : DogmosWorld F) (slot : Nat) {f : MixtureRecord F → MixtureRecord F}
    (hf : ∀ record, w.mixtureAt slot = some record → Relation.ReflTransGen R record (f record)) :
    Evolves R w (w.writeMixture slot f) := by
  refine ⟨fun other => mixtureGeneration_writeMixture .., fun other => ?_⟩
  rw [mixtureAt_writeMixture]
  split
  · next hother =>
    subst hother
    rcases hrecord : w.mixtureAt other with _ | record
    · exact .none
    · exact .some (hf record hrecord)
  · exact rel_refl _

/-- What a handle names evolves. -/
theorem requireHandle (h : Evolves R w w') {handle : MixtureHandle} {record : MixtureRecord F}
    (hrecord : w.requireHandle handle = .ok record) :
    ∃ record', w'.requireHandle handle = .ok record' ∧ Relation.ReflTransGen R record record' := by
  obtain ⟨hgeneration, hat⟩ := requireHandle_eq_ok.1 hrecord
  have hrel := h.records handle.slot.toNat
  rw [hat] at hrel
  rcases hafter : w'.mixtureAt handle.slot.toNat with _ | record'
  · rw [hafter] at hrel
    cases hrel
  · rw [hafter] at hrel
    cases hrel with
    | some hsteps =>
      refine ⟨record', requireHandle_eq_ok.2 ⟨?_, hafter⟩, hsteps⟩
      rw [h.generations]
      exact hgeneration

end Evolves

/-! ## Computations that check before they write -/

/-- From `w`, the computation fails with nothing changed or lets the records evolve. -/
def Writes {α : Type} (R : MixtureRecord F → MixtureRecord F → Prop) (w : DogmosWorld F)
    (m : WorldM F α) : Prop :=
  Triple (fun v => v = w) m (fun _ v => Evolves R w v) fun _ v => SameObserved w v

variable {α β : Type}

theorem writes_pure (a : α) : Writes R w (pure a : WorldM F α) := by
  refine triple_pure fun v hv => ?_
  rw [hv]
  exact .refl w

theorem writes_throw (error : WorldError) : Writes R w (throw error : WorldM F α) := by
  refine triple_throw fun v hv => ?_
  rw [hv]
  exact .refl w

theorem writes_check_bind {g : DogmosWorld F → Except WorldError α} {f : α → WorldM F β}
    (hf : ∀ a, g w = .ok a → Writes R w (f a)) : Writes R w (Exec.check g >>= f) := by
  rintro v rfl
  rw [run_bind, run_check]
  rcases hg : g v with error | a
  · exact .refl v
  · exact hf a hg v rfl

theorem writes_ite {c : Prop} [Decidable c] {m n : WorldM F α} (hm : c → Writes R w m)
    (hn : ¬c → Writes R w n) : Writes R w (if c then m else n) := by
  split
  · exact hm ‹_›
  · exact hn ‹_›

/-- A computation whose value is only passed on. -/
theorem Writes.bind_pure {m : WorldM F α} {f : α → β} (h : Writes R w m) :
    Writes R w (m >>= fun a => pure (f a)) :=
  triple_bind h fun _ => triple_pure fun _ hv => hv

/-- The record a mutation leaves. -/
def mutated [FloatFormat F] (result : Bool × MixtureRecord F) : MixtureRecord F :=
  if result.1 then
    { result.2 with gases := canonicalizeGases result.2.gases, revision := result.2.revision + 1 }
  else result.2

/-- One mixture is mutated, or nothing that can be observed changes. -/
theorem triple_mutateMixture [FloatFormat F] {handle : MixtureHandle}
    {mutation : MixtureRecord F → Bool × MixtureRecord F}
    (h : ∀ record, w.requireHandle handle = .ok record → record.revision ≠ maxRevision →
      Relation.ReflTransGen R record (mutated (mutation record))) :
    Triple (fun v => v = w) (mutateMixture handle mutation)
      (fun updated v => Evolves R w v ∧ ∃ record, w.requireHandle handle = .ok record ∧
        updated = (mutation record).1 ∧ ((mutated (mutation record)) = record → SameObserved w v))
      fun _ v => SameObserved w v := by
  unfold mutateMixture requireHandleMut
  rintro v rfl
  rw [run_bind, run_bind, run_check]
  rcases hrecord : v.requireHandle handle with error | record
  · exact .refl v
  · dsimp only
    rw [run_bind, run_modify]
    dsimp only
    rw [run_pure]
    dsimp only
    have hsettled := SameObserved.settle v handle.slot.toNat
    by_cases hrevision : record.revision = maxRevision
    · rw [if_pos hrevision]
      exact hsettled
    · rw [if_neg hrevision, run_bind, run_modify]
      have hat : ∀ found, (v.writeMixture handle.slot.toNat fun record => record).mixtureAt
          handle.slot.toNat = some found → found = record := by
        intro found hfound
        rw [hsettled.mixtures, (requireHandle_eq_ok.1 hrecord).2] at hfound
        exact (Option.some.inj hfound).symm
      refine ⟨(Evolves.of_sameObserved hsettled).trans (.writeMixture _ _ fun found hfound => ?_),
        record, rfl, rfl, fun hsame => hsettled.trans (.writeMixture _ _ fun found hfound => ?_)⟩
      · rw [hat found hfound]
        exact h record hrecord hrevision
      · rw [hat found hfound]
        exact hsame

theorem writes_mutate [FloatFormat F] {handle : MixtureHandle}
    {mutation : MixtureRecord F → Bool × MixtureRecord F}
    (h : ∀ record, w.requireHandle handle = .ok record → record.revision ≠ maxRevision →
      Relation.ReflTransGen R record (mutated (mutation record))) :
    Writes R w (mutateMixture handle mutation) :=
  triple_mono (triple_mutateMixture h) (fun _ hv => hv) (fun _ _ hv => hv.1) fun _ _ hv => hv

/-- Two mixtures are written. -/
theorem writes_pair {first second : MixtureHandle} {firstAfter secondAfter : Option (MixtureRecord F)}
    (hfirst : ∀ record, w.requireHandle first = .ok record →
      Relation.ReflTransGen R record (firstAfter.getD record))
    (hsecond : ∀ record, w.requireHandle second = .ok record →
      Relation.ReflTransGen R record (secondAfter.getD record)) :
    Writes R w (writePair first second firstAfter secondAfter) := by
  unfold writePair requireTwoHandlesMut
  rintro v rfl
  rw [run_bind, run_bind, run_check]
  rcases hfirstRecord : v.requireHandle first with error | firstRecord
  · exact .refl v
  · dsimp only
    rw [run_bind, run_check]
    rcases hsecondRecord : v.requireHandle second with error | secondRecord
    · exact .refl v
    · dsimp only
      by_cases hslot : first.slot = second.slot
      · rw [if_pos hslot]
        exact .refl v
      · rw [if_neg hslot, run_bind, run_modify]
        dsimp only
        rw [run_pure]
        dsimp only
        rw [run_modify]
        dsimp only
        have hsettled := (SameObserved.settle v first.slot.toNat).trans
          (.settle _ second.slot.toNat)
        generalize (v.writeMixture first.slot.toNat fun record => record).writeMixture
          second.slot.toNat (fun record => record) = settled at hsettled ⊢
        refine (Evolves.of_sameObserved hsettled).trans
          (.trans (.writeMixture _ _ fun found hfound => ?_) (.writeMixture _ _ fun found hfound => ?_))
        · rw [hsettled.mixtures, (requireHandle_eq_ok.1 hfirstRecord).2] at hfound
          cases hfound
          exact hfirst firstRecord hfirstRecord
        · rw [mixtureAt_writeMixture, if_neg fun heq => hslot (UInt32.toNat_inj.1 heq).symm,
            hsettled.mixtures, (requireHandle_eq_ok.1 hsecondRecord).2] at hfound
          cases hfound
          exact hsecond secondRecord hsecondRecord

end Evolves

end DogmosWorld

/-! ## Revisions -/

section Revision

variable [FloatFormat F]

/-- Two amounts that count as equal. -/
def Alike (a b : F) : Prop := a = b ∨ (a == b) = true

/-- The numbers of the record equal themselves. -/
def MixtureRecord.Ordered (record : MixtureRecord F) : Prop :=
  (record.temperature == record.temperature) = true ∧ gasesEqual record.gases record.gases = true

/-- What one write does to a record; `drops` says that trace amounts may be cleared without a
trace. -/
inductive Revision (drops : Prop) : MixtureRecord F → MixtureRecord F → Prop
  | raised {r s : MixtureRecord F} (hmutable : r.immutable = false)
      (hmax : r.revision ≠ maxRevision) (hrevision : s.revision = r.revision + 1) : Revision drops r s
  | unordered {r s : MixtureRecord F} (himmutable : r.immutable = true) (hordered : ¬r.Ordered)
      (hs : s.immutable = true) (hmax : r.revision ≠ maxRevision)
      (hrevision : s.revision = r.revision + 1) : Revision drops r s
  | alike {r : MixtureRecord F} {temperature : F} {gases : Gases F} (hmutable : r.immutable = false)
      (htemperature : Alike r.temperature temperature)
      (hgases : ∀ index, Alike (r.gases.at index) (gases.at index)) :
      Revision drops r { r with temperature, gases }
  | dropped {r : MixtureRecord F} {gases : Gases F} (hdrops : drops) (hmutable : r.immutable = false)
      : Revision drops r { r with gases }

variable {p : Prop} {r after : MixtureRecord F} {changed : Bool}

theorem Revision.mono {q : Prop} {s : MixtureRecord F} (h : Revision p r s)
    (hp : p → q) : Revision q r s := by
  cases h with
  | raised hmutable hmax hrevision => exact .raised hmutable hmax hrevision
  | unordered himmutable hordered hs hmax hrevision =>
    exact .unordered himmutable hordered hs hmax hrevision
  | alike hmutable htemperature hgases => exact .alike hmutable htemperature hgases
  | dropped h hmutable => exact .dropped (hp h) hmutable

theorem Alike.refl (a : F) : Alike a a := .inl rfl

theorem alike_of_bne {a b : F} (h : (a != b) = false) : Alike a b := by
  refine .inr ?_
  simpa only [bne, Bool.not_eq_false'] using h

/-- A write that counts as a change may raise the revision. -/
def Revisable (changed : Bool) (r after : MixtureRecord F) : Prop :=
  changed = true → after.revision = r.revision ∧
    (r.immutable = false ∨ r.immutable = true ∧ ¬r.Ordered ∧ after.immutable = true)

theorem Revisable.of_mutable (h : changed = true → r.immutable = false)
    (hrevision : after.revision = r.revision) : Revisable changed r after :=
  fun hchanged => ⟨hrevision, .inl (h hchanged)⟩

/-- A record that is written with its revision raised. -/
theorem Revisable.raise {s : MixtureRecord F} (h : Revisable true r after)
    (hmax : r.revision ≠ maxRevision) (hrevision : s.revision = after.revision + 1)
    (hs : s.immutable = after.immutable) : Relation.ReflTransGen (Revision p) r s := by
  obtain ⟨hsame, hmutable | ⟨himmutable, hordered, hafter⟩⟩ := h rfl
  · exact .single (.raised hmutable hmax (hsame ▸ hrevision))
  · exact .single (.unordered himmutable hordered (hs.trans hafter) hmax (hsame ▸ hrevision))

theorem revision_changeIf (h : Revisable changed r after) (hmax : r.revision ≠ maxRevision) :
    Relation.ReflTransGen (Revision p) r (DogmosWorld.mutated (DogmosWorld.changeIf changed r after)) := by
  cases changed with
  | false => exact .refl
  | true => exact h.raise hmax rfl rfl

theorem revision_write (h : Revisable changed r after)
    (hmax : changed = true → r.revision ≠ maxRevision) : Relation.ReflTransGen (Revision p) r
      ((if changed then some after.revised else none).getD r) := by
  cases changed with
  | false => exact .refl
  | true => exact h.raise (hmax rfl) rfl rfl

/-! ## Gases that change amount by amount -/

theorem alike_put {gases : Gases F} {index : Nat} {amount : F} (h : Alike (gases.at index) amount)
    (other : Nat) : Alike (gases.at other) ((gases.put index amount).at other) := by
  rw [Gases.at_put]
  split
  · next hother => exact hother.1 ▸ h
  · exact .refl _

theorem alike_map {gases : Gases F} {f : F → F}
    (h : ((gases.toList.zip (gases.map f).toList).any fun (moles, adjusted) => moles != adjusted) =
      false) (index : Nat) : Alike (gases.at index) (Gases.at (gases.map f) index) := by
  rw [Vector.toList_map, List.zip_map_right, List.any_map, List.any_eq_false] at h
  unfold Gases.at
  rw [Vector.getElem?_map]
  rcases hat : gases[index]? with _ | moles
  · exact .refl _
  · refine alike_of_bne (Bool.eq_false_iff.2 ?_)
    have hmem : (moles, moles) ∈ gases.toList.zip gases.toList := by
      rw [Vector.getElem?_eq_some_iff] at hat
      obtain ⟨hlt, rfl⟩ := hat
      refine List.mem_iff_getElem.2 ⟨index, ?_, ?_⟩
      · simpa using hlt
      · simp
    exact h (moles, moles) hmem

/-! ## Mutations of one record -/

section Mutations

open DogmosWorld Relation

theorem writeAdjusted_changed [FloatFormat D] [FloatCast F D] (entries : List (Nat × D)) :
    ∀ progress : Bool × Gases F, (entries.foldl writeAdjusted progress).1 = false →
      progress.1 = false := by
  induction entries with
  | nil => exact fun _ h => h
  | cons entry rest ih =>
    intro progress h
    have hchanged := ih _ h
    unfold writeAdjusted at hchanged
    exact (Bool.or_eq_false_iff.1 hchanged).1

/-- Amounts written one by one, when none of them counts as changed. -/
theorem alike_writeAdjusted [FloatFormat D] [FloatCast F D] (hmutable : r.immutable = false)
    (entries : List (Nat × D)) : ∀ progress : Bool × Gases F,
      (entries.foldl writeAdjusted progress).1 = false →
      ReflTransGen (Revision p) { r with gases := progress.2 }
        { r with gases := (entries.foldl writeAdjusted progress).2 } := by
  induction entries with
  | nil => exact fun _ _ => .refl
  | cons entry rest ih =>
    intro progress h
    refine .head ?_ (ih _ h)
    have hchanged := writeAdjusted_changed rest _ h
    unfold writeAdjusted at hchanged ⊢
    refine .alike (r := { r with gases := progress.2 }) hmutable (.refl _) (alike_put ?_)
    exact alike_of_bne (Bool.or_eq_false_iff.1 hchanged).2

/-- An addition clears trace amounts that it does not change otherwise. -/
def ErasesTrace [FloatFormat D] [FloatCast F D] (amount : F) (record : MixtureRecord F) : Prop :=
  (addToAll amount record).1 = false ∧
    ∃ index, ¬Alike (record.gases.at index) ((addToAll amount record).2.gases.at index)

theorem revision_addToAll [FloatFormat D] [FloatCast F D] (amount : F)
    (hmax : r.revision ≠ maxRevision) :
    ReflTransGen (Revision (ErasesTrace amount r)) r (mutated (addToAll amount r)) := by
  by_cases hsame : (r.immutable || amount == 0.0) = true
  · have hadd : addToAll amount r = (false, r) := if_pos hsame
    rw [hadd]
    exact .refl
  · have hmutable : r.immutable = false := by
      rcases himmutable : r.immutable with _ | _
      · rfl
      · exact absurd (by rw [himmutable]; rfl) hsame
    have hsecond : ∃ gases, (addToAll amount r).2 = { r with gases } := by
      unfold addToAll
      rw [if_neg hsame]
      exact ⟨_, rfl⟩
    obtain ⟨gases, hgases⟩ := hsecond
    rcases hchanged : (addToAll amount r).1 with _ | _
    · have hmutated : mutated (addToAll amount r) = { r with gases } := by
        unfold mutated
        rw [hchanged, if_neg Bool.false_ne_true, hgases]
      rw [hmutated]
      by_cases herases : ∃ index, ¬Alike (r.gases.at index) (gases.at index)
      · refine .single (.dropped ⟨hchanged, ?_⟩ hmutable)
        rw [hgases]
        exact herases
      · refine .single (.alike hmutable (.refl _) fun index => ?_)
        exact Classical.not_not.1 fun h => herases ⟨index, h⟩
    · refine .single (.raised hmutable hmax ?_)
      unfold mutated
      rw [hchanged, if_pos rfl, hgases]

theorem revision_multiplyAll [FloatFormat D] [FloatCast F D] (factor : F)
    (hmax : r.revision ≠ maxRevision) :
    ReflTransGen (Revision p) r (mutated (multiplyAll factor r)) := by
  unfold multiplyAll
  split
  · exact .refl
  · next hsame =>
    have hmutable : r.immutable = false := by
      rcases himmutable : r.immutable with _ | _
      · rfl
      · exact absurd (by rw [himmutable]; rfl) hsame
    dsimp only
    rcases hchanged : ((r.gases.toList.zip (r.gases.map fun moles =>
        dropTrace (saturatingScale moles factor)).toList).any fun (moles, adjusted) =>
          moles != adjusted) with _ | _
    · exact .single (.alike hmutable (.refl _) (alike_map hchanged))
    · exact .single (.raised hmutable hmax rfl)

theorem revision_adjustMultiple [FloatFormat D] [FloatCast F D] (entries : List (Nat × D))
    (hmax : r.revision ≠ maxRevision) :
    ReflTransGen (Revision p) r (mutated
      (if r.immutable then (false, r)
        else
          let (changed, gases) := entries.foldl writeAdjusted (false, r.gases)
          (changed, { r with gases }))) := by
  by_cases himmutable : r.immutable = true
  · rw [if_pos himmutable]
    exact .refl
  · rw [if_neg himmutable]
    have hmutable : r.immutable = false := Bool.eq_false_iff.2 himmutable
    have halike : (entries.foldl writeAdjusted (false, r.gases)).1 = false →
        ReflTransGen (Revision p) r
          { r with gases := (entries.foldl writeAdjusted (false, r.gases)).2 } :=
      alike_writeAdjusted hmutable entries (false, r.gases)
    rcases hwritten : entries.foldl writeAdjusted (false, r.gases) with ⟨_ | _, gases⟩
    · rw [hwritten] at halike
      exact halike rfl
    · exact .single (.raised hmutable hmax rfl)

end Mutations

namespace DogmosWorld

open Relation

variable {w : DogmosWorld F}

/-! ## Commands on one mixture -/

section Commands

omit [FloatFormat F] in
theorem not_immutable_of_changed {b : Bool} (h : (!(r.immutable || b)) = true) :
    r.immutable = false := by
  rw [Bool.not_eq_true', Bool.or_eq_false_iff] at h
  exact h.1

/-- A command that checks and writes one mixture. -/
theorem writes_mutate_changeIf {β : Type} {handle : MixtureHandle} {f : Bool → β}
    {changed : MixtureRecord F → Bool} {after : MixtureRecord F → MixtureRecord F}
    (h : ∀ record, w.requireHandle handle = .ok record →
      Revisable (changed record) record (after record)) :
    Writes (Revision p) w (do
      let updated ← mutateMixture handle fun mixture =>
        changeIf (changed mixture) mixture (after mixture)
      pure (f updated)) :=
  (writes_mutate fun record hrecord hmax => revision_changeIf (h record hrecord) hmax).bind_pure

/-- What a mutation does: nothing, or a change of a mutable record. -/
def Changes (record : MixtureRecord F) (result : Bool × MixtureRecord F) : Prop :=
  result = (false, record) ∨
    result.1 = true ∧ record.immutable = false ∧ result.2.revision = record.revision

omit [FloatFormat F] in
theorem changes_changeIf (hmutable : r.immutable = false) (hrevision : after.revision = r.revision) :
    Changes r (changeIf changed r after) := by
  cases changed with
  | false => exact .inl rfl
  | true => exact .inr ⟨rfl, hmutable, hrevision⟩

theorem triple_mutate_changes {handle : MixtureHandle}
    {mutation : MixtureRecord F → Bool × MixtureRecord F}
    (hmutation : ∀ record, Changes record (mutation record)) :
    Triple (fun v => v = w) (mutateMixture handle mutation)
      (fun updated v => Evolves (Revision p) w v ∧ (updated = false → SameObserved w v))
      fun _ v => SameObserved w v := by
  refine triple_mono (triple_mutateMixture (R := Revision p) fun record _ hmax => ?_)
    (fun _ hv => hv) ?_ fun _ _ hv => hv
  · obtain hunchanged | ⟨hchanged, hmutable, hrevision⟩ := hmutation record
    · rw [hunchanged]
      exact .refl
    · refine .single (.raised hmutable hmax ?_)
      unfold mutated
      rw [hchanged, if_pos rfl, hrevision]
  · rintro updated v ⟨hevolves, record, -, hupdated, hobserved⟩
    refine ⟨hevolves, fun hfalse => hobserved ?_⟩
    obtain hunchanged | ⟨hchanged, -⟩ := hmutation record
    · rw [hunchanged]
      rfl
    · rw [hupdated, hchanged] at hfalse
      cases hfalse

variable [FloatFormat D] [FloatCast F D]

theorem writes_adjustMoles (handle : MixtureHandle) (gas : GasId) (delta : F) :
    Writes (Revision p) w (adjustMoles (D := D) handle gas delta) := by
  unfold adjustMoles
  refine writes_check_bind fun index _ => writes_check_bind fun _ _ => ?_
  refine triple_bind (triple_mutate_changes (p := p) fun record => ?_) fun updated => ?_
  · split
    · exact .inl rfl
    · next hwrites =>
      split
      · exact .inl rfl
      · refine changes_changeIf ?_ rfl
        rcases himmutable : record.immutable with _ | _
        · rfl
        · exact absurd (by rw [himmutable]; rfl) hwrites
  · refine triple_ite (fun hunchanged => ?_) fun _ => triple_pure fun v hv => hv.1
    rw [Bool.not_eq_true'] at hunchanged
    refine triple_check_bind (fun record => triple_ite (fun _ => ?_) fun _ => ?_) ?_
    · exact triple_throw fun v hv => hv.1.2 hunchanged
    · exact triple_pure fun v hv => hv.1.1
    · exact fun v _ hv _ => hv.2 hunchanged

theorem writes_adjustMolesTemperature (handle : MixtureHandle) (gas : GasId) (amount temperature : F) :
    Writes (Revision p) w (adjustMolesTemperature handle gas amount temperature) := by
  unfold adjustMolesTemperature
  refine writes_check_bind fun _ _ => writes_check_bind fun _ _ => ?_
  refine writes_ite (fun _ => writes_pure _) fun _ => ?_
  refine writes_check_bind fun index _ => writes_check_bind fun _ _ => ?_
  refine writes_check_bind fun before _ => writes_check_bind fun _ _ => ?_
  refine writes_mutate_changeIf fun record _ => .of_mutable (fun hchanged => ?_) rfl
  rwa [Bool.not_eq_true'] at hchanged

theorem writes_adjustMultiple (handle : MixtureHandle) (adjustments : List (GasId × F)) :
    Writes (Revision p) w (adjustMultiple (D := D) handle adjustments) := by
  unfold adjustMultiple
  refine writes_check_bind fun before _ => writes_check_bind fun adjusted _ => ?_
  exact (writes_mutate fun record _ hmax => revision_adjustMultiple _ hmax).bind_pure

theorem writes_adjustHeat (handle : MixtureHandle) (heat : F) :
    Writes (Revision p) w (adjustHeat handle heat) := by
  unfold adjustHeat
  refine writes_check_bind fun _ _ => writes_check_bind fun before _ => ?_
  refine writes_check_bind fun capacity _ => writes_mutate_changeIf fun record _ => ?_
  refine .of_mutable (fun hchanged => ?_) rfl
  rw [Bool.or_assoc] at hchanged
  exact not_immutable_of_changed hchanged

/-- A temperature that is written when it differs from the one there. -/
theorem revisable_temperature {temperature : F}
    (himmutable : r.immutable = true → changed = (r.temperature != r.temperature)) :
    Revisable changed r { r with temperature } := by
  intro htrue
  refine ⟨rfl, ?_⟩
  rcases hr : r.immutable with _ | _
  · exact .inl rfl
  · refine .inr ⟨rfl, fun hordered => ?_, rfl⟩
    rw [himmutable hr, bne, hordered.1] at htrue
    cases htrue

theorem writes_temperatureShareNonGas (handle : MixtureHandle)
    (coefficient sharerTemperature sharerHeatCapacity : F) : Writes (Revision p) w
      (temperatureShareNonGas handle coefficient sharerTemperature sharerHeatCapacity) := by
  have hwrite : ∀ before, w.requireHandle handle = .ok before → ∀ temperature returned : F,
      (before.immutable = true → temperature = before.temperature) →
      Writes (Revision p) w (do
        let _ ← mutateMixture handle fun mixture =>
          changeIf (mixture.temperature != temperature) mixture { mixture with temperature }
        pure (CommandResult.scalar returned)) := by
    intro before hbefore temperature returned himmutable
    refine writes_mutate_changeIf fun record hrecord => revisable_temperature fun hr => ?_
    rw [hbefore] at hrecord
    cases hrecord
    rw [himmutable hr]
  unfold temperatureShareNonGas
  dsimp only
  refine writes_check_bind fun _ _ => writes_check_bind fun _ _ => writes_check_bind fun _ _ => ?_
  refine writes_check_bind fun before hbefore => ?_
  refine writes_ite (fun _ => writes_check_bind fun _ _ => writes_ite (fun _ => ?_) fun _ => ?_)
    fun _ => ?_
  · rw [pure_bind]
    exact hwrite before hbefore _ _ fun himmutable => if_pos himmutable
  · rw [pure_bind]
    exact hwrite before hbefore _ _ fun _ => rfl
  · rw [pure_bind]
    exact hwrite before hbefore _ _ fun _ => rfl

/-! ## Commands on two mixtures -/

omit [FloatFormat D] [FloatCast F D] in
theorem writes_copyFrom (receiver giver : MixtureHandle) :
    Writes (Revision p) w (copyFrom (F := F) receiver giver) := by
  unfold copyFrom
  refine writes_ite (fun _ => writes_throw _) fun _ => writes_check_bind fun _ _ => ?_
  refine writes_mutate_changeIf fun record _ => ?_
  exact .of_mutable (fun hchanged => not_immutable_of_changed hchanged) rfl

theorem writes_equalizeWith (receiver total : MixtureHandle) :
    Writes (Revision p) w (equalizeWith (F := F) receiver total) := by
  unfold equalizeWith
  refine writes_ite (fun _ => writes_throw _) fun _ => writes_check_bind fun _ _ => ?_
  refine writes_ite (fun _ => writes_pure _) fun _ => writes_mutate_changeIf fun record _ => ?_
  exact .of_mutable (fun hchanged => not_immutable_of_changed hchanged) rfl

omit [FloatFormat F] [FloatFormat D] [FloatCast F D] in
theorem ne_maxRevision_of_requireRevision {handle : MixtureHandle} {x : Unit}
    (h : requireRevision handle r changed = .ok x) (hchanged : changed = true) :
    r.revision ≠ maxRevision := by
  intro hmax
  unfold requireRevision at h
  rw [hchanged, hmax] at h
  cases h

/-- Two mixtures are written where they changed. -/
theorem writes_pair_revised {first second : MixtureHandle}
    {firstBefore secondBefore firstAfter secondAfter : MixtureRecord F} {firstChanged secondChanged : Bool}
    (hfirst : w.requireHandle first = .ok firstBefore)
    (hsecond : w.requireHandle second = .ok secondBefore)
    (hfirstMax : firstChanged = true → firstBefore.revision ≠ maxRevision)
    (hsecondMax : secondChanged = true → secondBefore.revision ≠ maxRevision)
    (hfirstAfter : Revisable firstChanged firstBefore firstAfter)
    (hsecondAfter : Revisable secondChanged secondBefore secondAfter) :
    Writes (Revision p) w (writePair first second
      (if firstChanged then some firstAfter.revised else none)
      (if secondChanged then some secondAfter.revised else none)) := by
  refine writes_pair (fun record hrecord => ?_) fun record hrecord => ?_
  · rw [hfirst] at hrecord
    cases hrecord
    exact revision_write hfirstAfter hfirstMax
  · rw [hsecond] at hrecord
    cases hrecord
    exact revision_write hsecondAfter hsecondMax

theorem writes_commitPairTemperatures {first second : MixtureHandle}
    {firstBefore secondBefore : MixtureRecord F} {firstTemperature secondTemperature : F}
    {firstChanged secondChanged : Bool} (hfirst : w.requireHandle first = .ok firstBefore)
    (hsecond : w.requireHandle second = .ok secondBefore)
    (hfirstAfter : Revisable firstChanged firstBefore { firstBefore with
      temperature := firstTemperature })
    (hsecondAfter : Revisable secondChanged secondBefore { secondBefore with
      temperature := secondTemperature }) :
    Writes (Revision p) w (commitPairTemperatures first second firstTemperature secondTemperature
      firstChanged secondChanged) := by
  have hcommit : (firstChanged = true → firstBefore.revision ≠ maxRevision) →
      (secondChanged = true → secondBefore.revision ≠ maxRevision) → ∀ count : UInt32,
      Writes (Revision p) w (do
        let firstRecord ← check fun w : DogmosWorld F => w.requireHandle first
        let secondRecord ← check fun w : DogmosWorld F => w.requireHandle second
        writePair first second
          (if firstChanged then
            some (MixtureRecord.revised { firstRecord with temperature := firstTemperature }) else none)
          (if secondChanged then
            some (MixtureRecord.revised { secondRecord with temperature := secondTemperature }) else none)
        pure count) := by
    intro hfirstMax hsecondMax count
    refine writes_check_bind fun firstRecord hfirstRecord => ?_
    refine writes_check_bind fun secondRecord hsecondRecord => Writes.bind_pure ?_
    rw [hfirst] at hfirstRecord
    rw [hsecond] at hsecondRecord
    cases hfirstRecord
    cases hsecondRecord
    exact writes_pair_revised hfirst hsecond hfirstMax hsecondMax hfirstAfter hsecondAfter
  have hmax : ∀ {handle : MixtureHandle} {before record : MixtureRecord F} {x : Unit},
      w.requireHandle handle = .ok before → w.requireHandle handle = .ok record →
      requireRevision handle record true = .ok x → before.revision ≠ maxRevision := by
    intro handle before record x hbefore hrecord hrevision
    rw [hbefore] at hrecord
    cases hrecord
    exact ne_maxRevision_of_requireRevision hrevision rfl
  unfold commitPairTemperatures
  dsimp only
  refine writes_ite (fun hfirstChanged => ?_) fun hfirstSame => ?_
  · refine writes_check_bind fun record hrecord => writes_check_bind fun _ hrevision => ?_
    have hfirstMax := hmax hfirst hrecord hrevision
    refine writes_ite (fun hsecondChanged => ?_) fun hsecondSame => ?_
    · refine writes_check_bind fun record hrecord => writes_check_bind fun _ hrevision => ?_
      have hsecondMax := hmax hsecond hrecord hrevision
      refine writes_ite (fun _ => writes_pure _) fun _ => ?_
      exact hcommit (fun _ => hfirstMax) (fun _ => hsecondMax) _
    · refine writes_ite (fun _ => writes_pure _) fun _ => ?_
      exact hcommit (fun _ => hfirstMax) (fun h => absurd h hsecondSame) _
  · refine writes_ite (fun hsecondChanged => ?_) fun hsecondSame => ?_
    · refine writes_check_bind fun record hrecord => writes_check_bind fun _ hrevision => ?_
      have hsecondMax := hmax hsecond hrecord hrevision
      refine writes_ite (fun _ => writes_pure _) fun _ => ?_
      exact hcommit (fun h => absurd h hfirstSame) (fun _ => hsecondMax) _
    · refine writes_ite (fun _ => writes_pure _) fun _ => ?_
      exact hcommit (fun h => absurd h hfirstSame) (fun h => absurd h hsecondSame) _

theorem writes_temperatureShare (first second : MixtureHandle) (coefficient : F) :
    Writes (Revision p) w (temperatureShare first second coefficient) := by
  have hcommit : ∀ {firstBefore secondBefore : MixtureRecord F} {firstTemperature secondTemperature : F},
      w.requireHandle first = .ok firstBefore → w.requireHandle second = .ok secondBefore →
      (firstBefore.immutable = true → firstTemperature = firstBefore.temperature) →
      (secondBefore.immutable = true → secondTemperature = secondBefore.temperature) →
      Writes (Revision p) w (do
        let _ ← commitPairTemperatures first second firstTemperature secondTemperature
          (firstTemperature != firstBefore.temperature) (secondTemperature != secondBefore.temperature)
        pure (CommandResult.scalar secondTemperature)) :=
    fun hfirst hsecond hfirstAfter hsecondAfter => (writes_commitPairTemperatures hfirst hsecond
      (revisable_temperature fun hr => by rw [hfirstAfter hr])
      (revisable_temperature fun hr => by rw [hsecondAfter hr])).bind_pure
  unfold temperatureShare
  dsimp only
  refine writes_ite (fun _ => writes_throw _) fun _ => writes_check_bind fun _ _ => ?_
  refine writes_check_bind fun firstBefore hfirst => writes_check_bind fun secondBefore hsecond => ?_
  refine writes_ite (fun _ => ?_) fun _ => ?_
  · refine writes_check_bind fun _ _ => writes_check_bind fun _ _ => ?_
    refine writes_ite (fun _ => ?_) fun _ => ?_
    · rw [pure_bind]
      exact hcommit hfirst hsecond (fun himmutable => if_pos himmutable)
        fun himmutable => if_pos himmutable
    · rw [pure_bind]
      exact hcommit hfirst hsecond (fun _ => rfl) fun _ => rfl
  · rw [pure_bind]
    exact hcommit hfirst hsecond (fun _ => rfl) fun _ => rfl

/-- A merge that succeeds has found its receiver. -/
theorem triple_mergeMixtures (receiver giver : MixtureHandle) :
    Triple (fun v => v = w) (mergeMixtures (F := F) receiver giver)
      (fun _ v => Evolves (Revision p) w v ∧ ∃ record, w.requireHandle receiver = .ok record)
      fun _ v => SameObserved w v := by
  unfold mergeMixtures
  dsimp only
  refine triple_ite (fun _ v hv => ?_) fun _ => ?_
  · subst hv
    exact SameObserved.refl v
  refine triple_check_bind (fun receiverBefore => ?_) fun v _ hv _ => hv ▸ .refl w
  refine triple_check_bind (fun giverBefore => ?_) fun v _ hv _ => hv.1 ▸ .refl w
  refine triple_ite (fun hmutable => ?_) fun _ => triple_pure fun v hv => ?_
  · refine triple_check_bind (fun registry => ?_) fun v _ hv _ => hv.1.1 ▸ .refl w
    rintro v ⟨⟨⟨rfl, hreceiver⟩, -⟩, -⟩
    have hwrites : Writes (Revision p) v (mutateMixture receiver fun mixture =>
        (true, { mixture with
          gases := Vector.zipWith saturatingAdd mixture.gases giverBefore.gases
          temperature :=
            (mergeRecord receiverBefore giverBefore registry.specificHeats).temperature })) := by
      refine writes_mutate fun record hrecord hmax => ?_
      rw [hreceiver] at hrecord
      cases hrecord
      refine .single (.raised ?_ hmax rfl)
      rwa [Bool.not_eq_true'] at hmutable
    refine triple_bind hwrites (fun _ => triple_pure fun v hv => ⟨hv, _, hreceiver⟩) v rfl
  · obtain ⟨⟨rfl, hreceiver⟩, -⟩ := hv
    exact ⟨.refl v, _, hreceiver⟩

theorem writes_removeRatioInto (source destination : MixtureHandle) (ratio : F)
    (canonicalizeTraces : Bool) :
    Writes (Revision p) w (removeRatioInto source destination ratio canonicalizeTraces) := by
  unfold removeRatioInto
  dsimp only
  refine writes_check_bind fun _ _ => writes_check_bind fun sourceBefore hsource => ?_
  refine writes_check_bind fun destinationBefore hdestination => ?_
  refine writes_ite (fun _ => writes_pure _) fun hwrites => ?_
  refine writes_check_bind fun _ hsourceMax => writes_check_bind fun _ hdestinationMax => ?_
  refine Writes.bind_pure (writes_pair (fun record hrecord => ?_) fun record hrecord => ?_)
  · rw [hsource] at hrecord
    cases hrecord
    split
    · exact .refl
    · next hmutable =>
      refine .single (.raised (Bool.eq_false_iff.2 hmutable) ?_ rfl)
      exact ne_maxRevision_of_requireRevision hsourceMax rfl
  · rw [hdestination] at hrecord
    cases hrecord
    rw [Bool.or_eq_true, not_or] at hwrites
    refine .single (.raised (Bool.eq_false_iff.2 hwrites.2) ?_ rfl)
    exact ne_maxRevision_of_requireRevision hdestinationMax rfl

theorem writes_transferGases (source destination : MixtureHandle) (ratio : F) (gases : List GasId) :
    Writes (Revision p) w (transferGases source destination ratio gases) := by
  unfold transferGases
  dsimp only
  refine writes_ite (fun _ => writes_throw _) fun _ => writes_check_bind fun _ _ => ?_
  refine writes_check_bind fun _ _ => writes_check_bind fun sourceBefore hsource => ?_
  refine writes_check_bind fun destinationBefore hdestination => ?_
  refine writes_ite (fun _ => writes_pure _) fun hwrites => ?_
  refine writes_check_bind fun _ hsourceMax => writes_check_bind fun _ hdestinationMax => ?_
  refine writes_check_bind fun _ _ => writes_check_bind fun _ _ => ?_
  rw [Bool.or_eq_true, Bool.or_eq_true, not_or, not_or] at hwrites
  refine Writes.bind_pure (writes_pair (fun record hrecord => ?_) fun record hrecord => ?_)
  · rw [hsource] at hrecord
    cases hrecord
    refine .single (.raised (Bool.eq_false_iff.2 hwrites.1.2) ?_ rfl)
    exact ne_maxRevision_of_requireRevision hsourceMax rfl
  · rw [hdestination] at hrecord
    cases hrecord
    refine .single (.raised (Bool.eq_false_iff.2 hwrites.2) ?_ rfl)
    exact ne_maxRevision_of_requireRevision hdestinationMax rfl

omit [FloatFormat D] [FloatCast F D] in
/-- A write that computes an immutable record as it was. -/
theorem revisable_of_differ (hrevision : after.revision = r.revision)
    (himmutable : after.immutable = r.immutable)
    (hsame : r.immutable = true → changed = true → ¬r.Ordered) : Revisable changed r after := by
  intro htrue
  refine ⟨hrevision, ?_⟩
  rcases hr : r.immutable with _ | _
  · exact .inl rfl
  · exact .inr ⟨rfl, hsame hr htrue, himmutable.trans hr⟩

theorem writes_transferRatioTo (source destination : MixtureHandle) (ratio : F) :
    Writes (Revision p) w (transferRatioTo source destination ratio) := by
  have hsourceAfter : ∀ (sourceBefore : MixtureRecord F) (gases : Gases F),
      Revisable (!gasesEqual (if sourceBefore.immutable then sourceBefore
          else { sourceBefore with gases }).gases sourceBefore.gases) sourceBefore
        (if sourceBefore.immutable then sourceBefore else { sourceBefore with gases }) := by
    intro sourceBefore gases
    refine revisable_of_differ (by split <;> rfl) (by split <;> rfl) fun himmutable htrue hordered => ?_
    rw [if_pos himmutable, hordered.2] at htrue
    cases htrue
  have hdestinationAfter : ∀ {before after : MixtureRecord F},
      (before.immutable = true → after = before) → after.revision = before.revision →
      after.immutable = before.immutable →
      Revisable (!gasesEqual after.gases before.gases || after.temperature != before.temperature)
        before after := by
    intro before after himmutable hrevision hsame
    refine revisable_of_differ hrevision hsame fun hbefore htrue hordered => ?_
    rw [himmutable hbefore, bne, hordered.1, hordered.2] at htrue
    cases htrue
  unfold transferRatioTo
  dsimp only
  refine writes_check_bind fun _ _ => writes_check_bind fun sourceBefore hsource => ?_
  refine writes_check_bind fun destinationBefore hdestination => ?_
  refine writes_ite (fun _ => writes_pure _) fun _ => ?_
  refine writes_ite (fun himmutable => ?_) fun hmutable => writes_check_bind fun registry _ => ?_
  · rw [pure_bind]
    refine writes_check_bind fun _ hsourceMax => writes_check_bind fun _ hdestinationMax => ?_
    refine writes_ite (fun _ => writes_pure _) fun _ => Writes.bind_pure ?_
    exact writes_pair_revised hsource hdestination (ne_maxRevision_of_requireRevision hsourceMax)
      (ne_maxRevision_of_requireRevision hdestinationMax) (hsourceAfter _ _)
      (hdestinationAfter (fun _ => rfl) rfl rfl)
  · rw [pure_bind]
    refine writes_check_bind fun _ hsourceMax => writes_check_bind fun _ hdestinationMax => ?_
    refine writes_ite (fun _ => writes_pure _) fun _ => Writes.bind_pure ?_
    exact writes_pair_revised hsource hdestination (ne_maxRevision_of_requireRevision hsourceMax)
      (ne_maxRevision_of_requireRevision hdestinationMax) (hsourceAfter _ _)
      (hdestinationAfter (fun himmutable => absurd himmutable hmutable) rfl rfl)

theorem writes_shareRatio (first second : MixtureHandle) (ratio : F) (oneWay : Bool) :
    Writes (Revision p) w (shareRatio first second ratio oneWay) := by
  have hafter : ∀ {before shared : MixtureRecord F}, Recomputed before shared →
      Revisable (mixtureThermodynamicsDiffer before (canonicalRecord shared)) before
        (canonicalRecord shared) := by
    intro before shared hshared
    have hcanonical := hshared.trans (recomputed_canonicalRecord shared)
    refine revisable_of_differ hcanonical.revision hcanonical.immutable fun himmutable htrue hordered => ?_
    rw [hcanonical.same himmutable] at htrue
    unfold mixtureThermodynamicsDiffer at htrue
    rw [bne, hordered.1, hordered.2] at htrue
    cases htrue
  unfold shareRatio
  dsimp only
  refine writes_check_bind fun ratio _ => writes_check_bind fun registry _ => ?_
  refine writes_check_bind fun firstBefore hfirst => writes_check_bind fun secondBefore hsecond => ?_
  refine writes_check_bind fun _ hfirstMax => writes_check_bind fun _ hsecondMax => ?_
  refine writes_ite (fun _ => Writes.bind_pure ?_) fun _ => writes_pure _
  obtain ⟨hfirstShared, hsecondShared⟩ :=
    recomputed_sharedRecords firstBefore secondBefore ratio oneWay registry.specificHeats
  exact writes_pair_revised hfirst hsecond (ne_maxRevision_of_requireRevision hfirstMax)
    (ne_maxRevision_of_requireRevision hsecondMax) (hafter hfirstShared) (hafter hsecondShared)

theorem writes_transferByFlags (source destination : MixtureHandle) (flags : UInt32) (amount : F) :
    Writes (Revision p) w (transferByFlags source destination flags amount) := by
  unfold transferByFlags
  dsimp only
  refine writes_ite (fun _ => writes_pure _) fun _ => writes_check_bind fun _ _ => ?_
  refine writes_ite (fun _ => writes_pure _) fun _ => writes_check_bind fun _ _ => ?_
  refine writes_ite (fun _ => writes_pure _) fun _ => ?_
  exact (writes_transferGases _ _ _ _).bind_pure

/-! ## The dispatch -/

/-- The command is an addition that clears trace amounts it does not change otherwise. -/
def Erases (w : DogmosWorld F) (command : Command F) : Prop :=
  ∃ handle amount record, command = .add handle amount ∧ w.requireHandle handle = .ok record ∧
    ErasesTrace amount record

/-- **What a command writes**: when it fails nothing has changed, and when it succeeds it has
raised revisions, or cleared trace amounts. -/
theorem writes_writeCommand (w : DogmosWorld F) (command : Command F) :
    Writes (Revision (w.Erases command)) w (writeCommand command) := by
  cases command with
  | setMoles handle gas amount =>
    refine writes_check_bind fun _ _ => writes_check_bind fun _ _ => ?_
    refine writes_mutate_changeIf fun record _ => ?_
    exact .of_mutable (fun hchanged => not_immutable_of_changed hchanged) rfl
  | adjustMoles handle gas delta => exact writes_adjustMoles _ _ _
  | adjustMolesTemperature handle gas amount temperature =>
    exact writes_adjustMolesTemperature _ _ _ _
  | adjustMultiple handle adjustments => exact writes_adjustMultiple _ _
  | setTemperature handle temperature =>
    refine writes_check_bind fun _ _ => writes_mutate_changeIf fun record _ => ?_
    exact .of_mutable (fun hchanged => not_immutable_of_changed hchanged) rfl
  | setVolume handle volume =>
    refine writes_check_bind fun _ _ => writes_mutate_changeIf fun record _ => ?_
    exact .of_mutable (fun hchanged => not_immutable_of_changed hchanged) rfl
  | setMinimumHeatCapacity handle amount =>
    refine writes_check_bind fun _ _ => writes_mutate_changeIf fun record _ => ?_
    exact .of_mutable (fun hchanged => not_immutable_of_changed hchanged) rfl
  | clear handle =>
    refine writes_mutate_changeIf fun record _ => ?_
    exact .of_mutable (fun hchanged => not_immutable_of_changed hchanged) rfl
  | add handle amount =>
    refine writes_check_bind fun _ _ => Writes.bind_pure (writes_mutate fun record hrecord hmax => ?_)
    refine ReflTransGen.mono (fun before after hstep => ?_) _ _ (revision_addToAll amount hmax)
    exact hstep.mono fun herases => ⟨handle, amount, record, rfl, hrecord, herases⟩
  | multiply handle factor =>
    refine writes_check_bind fun _ _ => Writes.bind_pure (writes_mutate fun record _ hmax => ?_)
    exact revision_multiplyAll factor hmax
  | adjustHeat handle heat => exact writes_adjustHeat _ _
  | temperatureShareNonGas handle coefficient temperature capacity =>
    exact writes_temperatureShareNonGas _ _ _ _
  | markImmutable handle =>
    refine writes_mutate_changeIf fun record _ => .of_mutable (fun hchanged => ?_) rfl
    rwa [Bool.not_eq_true'] at hchanged
  | copyFrom receiver giver => exact writes_copyFrom _ _
  | equalizeWith receiver total => exact writes_equalizeWith _ _
  | temperatureShare first second coefficient => exact writes_temperatureShare _ _ _
  | merge receiver giver =>
    refine triple_bind (triple_mergeMixtures (p := w.Erases (.merge receiver giver)) receiver giver)
      fun _ => ?_
    refine triple_check_bind (fun record => triple_pure fun v hv => hv.1.1) ?_
    rintro v error ⟨hevolves, record, hrecord⟩ herror
    obtain ⟨record', hrecord', -⟩ := hevolves.requireHandle hrecord
    rw [hrecord'] at herror
    cases herror
  | removeRatioInto source destination ratio => exact (writes_removeRatioInto _ _ _ _).bind_pure
  | removeAmountInto source destination amount =>
    exact writes_check_bind fun _ _ => (writes_removeRatioInto _ _ _ _).bind_pure
  | transferGases source destination ratio gases => exact (writes_transferGases _ _ _ _).bind_pure
  | transferAmount source destination amount =>
    exact writes_check_bind fun _ _ => (writes_transferRatioTo _ _ _).bind_pure
  | transferRatio source destination ratio => exact (writes_transferRatioTo _ _ _).bind_pure
  | transferByFlags source destination flags amount => exact writes_transferByFlags _ _ _ _
  | shareRatio first second ratio oneWay => exact (writes_shareRatio _ _ _ _).bind_pure
  | _ => exact writes_pure _

end Commands

end DogmosWorld

end Revision

end Dogmos
