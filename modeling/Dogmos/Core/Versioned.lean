import Mathlib.Tactic.Common

/-!
# Versioned records

A stage writes its candidates next to the authoritative records and makes all of
them visible with one change of a shared publication token.  A token is pending,
published or conflicted and only leaves the pending state once.  Here tokens are
numbers and `Publications` is the list of their states, so two records share a
token when they carry the same number.

A record is read with `asRef` and made writable with `settle`, which adopts a
published candidate and otherwise drops it and invalidates its token: a write
behind a stage's back is what makes the stage's publication fail.
-/

namespace Dogmos

/-- The states of a publication token: `PENDING`, `PUBLISHED` and `CONFLICTED`. -/
inductive PublicationState
  | pending
  | published
  | conflicted
deriving DecidableEq

/-- The states of all publication tokens, by number. -/
abbrev Publications := List PublicationState

/-- A publication token. -/
abbrev PublicationId := Nat

namespace Publications

/-- `Publication::new`: the number the next token gets. -/
def fresh (publications : Publications) : PublicationId := publications.length

/-- The tokens with the next one added. -/
def withFresh (publications : Publications) : Publications := publications ++ [.pending]

/-- `Publication::visible`. -/
def visible (publications : Publications) (id : PublicationId) : Bool :=
  publications[id]? = some .published

/-- Whether a token has not been decided yet. -/
def undecided (publications : Publications) (id : PublicationId) : Bool :=
  publications[id]? = some .pending

/-- `Publication::publish`, as the tokens it leaves; it succeeds when the token is undecided. -/
def publish (publications : Publications) (id : PublicationId) : Publications :=
  if publications.undecided id then publications.set id .published else publications

/-- `Publication::invalidate`. -/
def invalidate (publications : Publications) (id : PublicationId) : Publications :=
  if publications.undecided id then publications.set id .conflicted else publications

section

variable (publications : Publications) (id other : PublicationId)

@[simp] theorem length_publish : (publications.publish id).length = publications.length := by
  unfold publish
  split
  · exact List.length_set
  · rfl

@[simp] theorem length_invalidate : (publications.invalidate id).length = publications.length := by
  unfold invalidate
  split
  · exact List.length_set
  · rfl

@[simp] theorem length_withFresh : publications.withFresh.length = publications.length + 1 := by
  simp [withFresh]

theorem lt_length_of_undecided {publications : Publications} {id : PublicationId}
    (h : publications.undecided id = true) : id < publications.length := by
  by_contra hlen
  simp [undecided, List.getElem?_eq_none (Nat.le_of_not_lt hlen)] at h

theorem not_visible_of_undecided {publications : Publications} {id : PublicationId}
    (h : publications.undecided id = true) : publications.visible id = false := by
  simp only [undecided, decide_eq_true_eq] at h
  simp [visible, h]

/-- Publishing makes an undecided token visible and no other one. -/
theorem visible_publish :
    (publications.publish id).visible other =
      (publications.visible other || (decide (other = id) && publications.undecided id)) := by
  unfold publish
  by_cases hfree : publications.undecided id
  · have hlen := lt_length_of_undecided hfree
    rw [if_pos hfree]
    unfold visible
    rw [List.getElem?_set]
    by_cases hid : id = other
    · subst hid
      simp [hlen, hfree]
    · simp [hid, Ne.symm hid]
  · simp [hfree]

theorem undecided_publish :
    (publications.publish id).undecided other =
      (publications.undecided other && !decide (other = id)) := by
  unfold publish
  by_cases hfree : publications.undecided id
  · have hlen := lt_length_of_undecided hfree
    rw [if_pos hfree]
    unfold undecided
    rw [List.getElem?_set]
    by_cases hid : id = other
    · subst hid
      simp [hlen]
    · simp [hid, Ne.symm hid]
  · by_cases hid : other = id
    · subst hid
      simp [hfree]
    · simp [hfree, hid]

@[simp] theorem visible_invalidate :
    (publications.invalidate id).visible other = publications.visible other := by
  unfold invalidate
  by_cases hfree : publications.undecided id
  · have hlen := lt_length_of_undecided hfree
    have hvisible := not_visible_of_undecided hfree
    rw [if_pos hfree]
    by_cases hid : id = other
    · subst hid
      rw [hvisible]
      simp [visible, hlen]
    · simp [visible, hid]
  · simp [hfree]

theorem undecided_invalidate :
    (publications.invalidate id).undecided other =
      (publications.undecided other && !decide (other = id)) := by
  unfold invalidate
  by_cases hfree : publications.undecided id
  · have hlen := lt_length_of_undecided hfree
    rw [if_pos hfree]
    unfold undecided
    rw [List.getElem?_set]
    by_cases hid : id = other
    · subst hid
      simp [hlen]
    · simp [hid, Ne.symm hid]
  · by_cases hid : other = id
    · subst hid
      simp [hfree]
    · simp [hfree, hid]

@[simp] theorem visible_withFresh :
    publications.withFresh.visible other = publications.visible other := by
  unfold withFresh visible
  by_cases hlen : other < publications.length
  · rw [List.getElem?_append_left hlen]
  · have hnone : publications[other]? = none := List.getElem?_eq_none (Nat.le_of_not_lt hlen)
    rw [List.getElem?_append_right (Nat.le_of_not_lt hlen), hnone]
    rcases other - publications.length with _ | n <;> simp

theorem undecided_withFresh :
    publications.withFresh.undecided other =
      (publications.undecided other || decide (other = publications.fresh)) := by
  unfold withFresh undecided fresh
  by_cases hlen : other < publications.length
  · rw [List.getElem?_append_left hlen]
    simp [Nat.ne_of_lt hlen]
  · have hnone : publications[other]? = none := List.getElem?_eq_none (Nat.le_of_not_lt hlen)
    rw [List.getElem?_append_right (Nat.le_of_not_lt hlen), hnone]
    by_cases hlast : other = publications.length
    · simp [hlast]
    · have hpos : other - publications.length ≠ 0 :=
        Nat.sub_ne_zero_of_lt (Nat.lt_of_le_of_ne (Nat.le_of_not_lt hlen) (Ne.symm hlast))
      simp [hlast, hpos]

end

end Publications

/-- `Versioned`: a record and the candidate staged next to it. -/
structure Versioned (T : Type) where
  current : Option T
  pending : Option (PublicationId × T)

namespace Versioned

variable {T : Type}

/-- `Versioned::new`. -/
def new (current : Option T) : Versioned T := { current, pending := none }

/-- `Versioned::default`. -/
def vacant : Versioned T := { current := none, pending := none }

/-- `Versioned::as_ref`. -/
def asRef (record : Versioned T) (publications : Publications) : Option T :=
  match record.pending with
  | some (id, candidate) => if publications.visible id then some candidate else record.current
  | none => record.current

/-- The record `Versioned::as_mut` leaves before anything is written to it. -/
def settled (record : Versioned T) (publications : Publications) : Versioned T :=
  { current := record.asRef publications, pending := none }

/-- The tokens `Versioned::as_mut` leaves. -/
def settleTokens (record : Versioned T) (publications : Publications) : Publications :=
  match record.pending with
  | some (id, _) => publications.invalidate id
  | none => publications

/-- The candidate staged under a token. -/
def candidate (record : Versioned T) (id : PublicationId) : Option T :=
  match record.pending with
  | some (token, candidate) => if token = id then some candidate else none
  | none => none

/-- The record `Versioned::stage` leaves. -/
def stage (record : Versioned T) (publications : Publications) (id : PublicationId)
    (candidate : T) : Versioned T :=
  if (record.candidate id).isSome then { record with pending := some (id, candidate) }
  else { record.settled publications with pending := some (id, candidate) }

/-- The tokens `Versioned::stage` leaves. -/
def stageTokens (record : Versioned T) (publications : Publications) (id : PublicationId) :
    Publications :=
  if (record.candidate id).isSome then publications else record.settleTokens publications

/-- The candidate `Versioned::prepared_mut` hands out: the staged one, or a copy of the record. -/
def prepared (record : Versioned T) (publications : Publications) (id : PublicationId) :
    Option T :=
  (record.candidate id).or (record.asRef publications)

section

variable (record : Versioned T) (publications : Publications) (id : PublicationId)

@[simp] theorem visible_settleTokens (other : PublicationId) :
    (record.settleTokens publications).visible other = publications.visible other := by
  unfold settleTokens
  split <;> simp

@[simp] theorem visible_stageTokens (other : PublicationId) :
    (record.stageTokens publications id).visible other = publications.visible other := by
  unfold stageTokens
  split <;> simp

theorem pending_stage (candidate : T) :
    (record.stage publications id candidate).pending = some (id, candidate) := by
  unfold stage
  split <;> rfl

/-- What is visible depends on the tokens that are visible only. -/
theorem asRef_congr {publications' : Publications}
    (h : ∀ id, publications'.visible id = publications.visible id) :
    record.asRef publications' = record.asRef publications := by
  unfold asRef
  split
  · rw [h]
  · rfl

/-- Staging under a token that is not visible hides the candidate. -/
theorem asRef_stage (candidate : T) (h : publications.visible id = false) :
    (record.stage publications id candidate).asRef publications = record.asRef publications := by
  unfold stage
  split
  · next hcandidate =>
    obtain ⟨current, _ | ⟨token, staged⟩⟩ := record
    · simp [Versioned.candidate] at hcandidate
    · have htoken : token = id := by
        by_contra hne
        simp [Versioned.candidate, hne] at hcandidate
      simp [asRef, htoken, h]
  · simp [asRef, settled, h]

end

end Versioned

end Dogmos
