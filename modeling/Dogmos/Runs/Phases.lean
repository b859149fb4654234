import Dogmos.Runs.Chunks

/-!
# Pre- and postconditions of chunks

What is known about the world at the start of a phase, after each of its units,
and when none of its units remains.  A phase returns early with the condition of
its units.
Errors have a postcondition of their own, as the chunk that fails only has to
leave a world that can be aborted.
-/

namespace Dogmos

open Exec

namespace Chunk

variable {F : Type} {J K Q : DogmosWorld F → Prop} {E : WorldError → DogmosWorld F → Prop} {α : Type}

/-- From worlds that meet `J`, the chunk returns in worlds that meet `Q` and fails with errors and
worlds that meet `E`. -/
abbrev Secured (J : DogmosWorld F → Prop) (m : ChunkM F α) (Q : DogmosWorld F → Prop)
    (E : WorldError → DogmosWorld F → Prop) : Prop :=
  Triple (fun chunk : Chunk F => J chunk.world) m (fun _ chunk => Q chunk.world)
    fun error chunk => E error chunk.world

theorem secured_onWorld {m : WorldM F α} {Q : α → DogmosWorld F → Prop} (h : Triple J m Q E) :
    Triple (fun chunk : Chunk F => J chunk.world) (onWorld m) (fun a chunk => Q a chunk.world)
      fun error chunk => E error chunk.world := by
  intro chunk hchunk
  have h := h chunk.world hchunk
  rw [run_onWorld]
  rcases hrun : run m chunk.world with ⟨result, w⟩
  rw [hrun] at h
  cases result with
  | error error => exact h
  | ok a => exact h

theorem secured_checkCancelled (shouldCancel : Nat → Bool) (hE : ∀ w, J w → E .cancelled w) :
    Secured J (checkCancelled shouldCancel) J E := by
  intro chunk hchunk
  rw [run_checkCancelled]
  split
  · next heq =>
    simp only [Prod.mk.injEq] at heq
    obtain ⟨-, rfl⟩ := heq
    exact hchunk
  · next heq =>
    simp only [Prod.mk.injEq] at heq
    obtain ⟨herror, rfl⟩ := heq
    split at herror
    · cases herror
      exact hE _ hchunk
    · cases herror

theorem secured_workLoop {unit : ChunkM F Bool} (h : Secured J unit J E) (budget : Nat) :
    Secured J (workLoop unit budget) J E := by
  induction budget with
  | zero => exact triple_pure fun _ hs => hs
  | succ budget ih =>
    refine triple_bind h fun worked => triple_ite (fun _ => ?_) fun _ => triple_pure fun _ hs => hs
    exact triple_bind (triple_modify fun _ hs => hs) fun _ => ih

theorem secured_checkedBefore (shouldCancel : Nat → Bool) (available : DogmosWorld F → Bool)
    {m : WorldM F Unit} (hE : ∀ w, J w → E .cancelled w)
    (h : Triple (fun w => J w ∧ available w = true) m (fun _ => J) E) :
    Secured J (checkedBefore shouldCancel available m) J E := by
  refine triple_get_bind fun chunk hJ => triple_ite (fun havailable => ?_) fun _ => ?_
  · have hcancelled := secured_checkCancelled (J := fun w => J w ∧ available w = true) (E := E)
      shouldCancel fun w hw => hE w hw.1
    refine triple_mono (triple_bind hcancelled fun _ => triple_bind (secured_onWorld h) fun _ => ?_)
      (fun s hs => ?_) (fun _ _ h => h) fun _ _ h => h
    · exact triple_pure fun _ hs => hs
    · subst hs
      exact ⟨hJ, havailable⟩
  · refine triple_pure fun s hs => ?_
    subst hs
    exact hJ

theorem secured_checkedAfter (shouldCancel : Nat → Bool) {m : WorldM F Bool}
    (hE : ∀ w, J w → E .cancelled w) (h : Triple J m (fun _ => J) E) :
    Secured J (checkedAfter shouldCancel m) J E := by
  refine triple_bind (secured_onWorld h) fun worked => triple_ite (fun _ => ?_) fun _ => ?_
  · exact triple_bind (secured_checkCancelled shouldCancel hE) fun _ => triple_pure fun _ hs => hs
  · exact triple_pure fun _ hs => hs

end Chunk

end Dogmos
