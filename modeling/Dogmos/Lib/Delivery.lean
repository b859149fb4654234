import Mathlib.Data.List.Basic

/-!
# Numbered delivery

A producer numbers its messages and puts them at the end of a queue; a consumer takes them from
the front; some messages may be withdrawn while they wait.  `Ledger` relates the log of what was
issued, the log of what was delivered and the queue, and `Passage` is what one step may do to a
queue.

* `Thinned` — a list less some of its withdrawable elements, in the same order.
* `Ledger.passage` — the step rule: a passage of the queue keeps the ledger.
* `Ledger.complete` — what cannot be withdrawn is delivered or waits, exactly once and in order.
* `passage_new` — the messages a step adds are those with a number from the next one on.
-/

namespace Delivery

variable {α : Type}

/-! ## Thinning -/

/-- The second list is the first one less some elements that need not be kept. -/
structure Thinned (keep : α → Bool) (before after : List α) : Prop where
  sublist : after.Sublist before
  kept : after.filter keep = before.filter keep

namespace Thinned

variable {keep : α → Bool} {a b c d : List α}

theorem refl (keep : α → Bool) (a : List α) : Thinned keep a a := ⟨.refl a, rfl⟩

theorem trans (h : Thinned keep a b) (h' : Thinned keep b c) : Thinned keep a c :=
  ⟨h'.sublist.trans h.sublist, h'.kept.trans h.kept⟩

theorem append (h : Thinned keep a b) (h' : Thinned keep c d) : Thinned keep (a ++ c) (b ++ d) :=
  ⟨h.sublist.append h'.sublist, by rw [List.filter_append, List.filter_append, h.kept, h'.kept]⟩

/-- A filter that keeps what has to be kept. -/
theorem of_filter {p : α → Bool} (h : ∀ x ∈ a, keep x → p x) : Thinned keep a (a.filter p) := by
  refine ⟨List.filter_sublist, ?_⟩
  rw [List.filter_filter]
  refine List.filter_congr fun x hx => ?_
  cases hk : keep x with
  | false => simp
  | true => simp [h x hx hk]

end Thinned

/-! ## Numbers -/

/-- The elements of a list carry consecutive numbers. -/
def Consecutive (number : α → ℕ) (first : ℕ) (l : List α) : Prop :=
  l.map number = List.range' first l.length

section Consecutive

variable {number : α → ℕ} {first : ℕ} {l l' : List α}

@[simp] theorem consecutive_nil : Consecutive number first [] := rfl

theorem consecutive_cons {x : α} :
    Consecutive number first (x :: l) ↔ number x = first ∧ Consecutive number (first + 1) l := by
  simp [Consecutive, List.range'_succ]

theorem Consecutive.append (h : Consecutive number first l)
    (h' : Consecutive number (first + l.length) l') : Consecutive number first (l ++ l') := by
  unfold Consecutive at *
  rw [List.map_append, h, h', List.length_append, List.range'_append_1]

theorem Consecutive.bounds (h : Consecutive number first l) {x : α} (hx : x ∈ l) :
    first ≤ number x ∧ number x < first + l.length := by
  have hmem : number x ∈ l.map number := List.mem_map_of_mem hx
  rw [h, List.mem_range'_1] at hmem
  exact hmem

end Consecutive

/-! ## Steps and logs -/

/-- One step of a queue with its next number: some messages are withdrawn, some delivered from the
front, and some added at the end. -/
structure Passage (keep : α → Bool) (number : α → ℕ) (queue : List α) (next : ℕ)
    (delivered added : List α) (queue' : List α) (next' : ℕ) : Prop where
  exists_kept : ∃ kept, Thinned keep queue (delivered ++ kept) ∧ queue' = kept ++ added
  numbers : Consecutive number next added
  next_eq : next' = next + added.length

/-- The logs of a queue: what was issued since the start is numbered from 1 on, and what was
delivered and what waits make up the issued messages less withdrawn ones. -/
structure Ledger (keep : α → Bool) (number : α → ℕ) (issued delivered queue : List α) (next : ℕ) :
    Prop where
  numbers : Consecutive number 1 issued
  next_eq : next = issued.length + 1
  thinned : Thinned keep issued (delivered ++ queue)

section Ledger

variable {keep : α → Bool} {number : α → ℕ} {issued delivered queue given added queue' : List α}
  {next next' : ℕ}

theorem Ledger.start : Ledger keep number [] [] [] 1 := ⟨rfl, rfl, .refl _ _⟩

/-- **The step rule.** -/
theorem Ledger.passage (h : Ledger keep number issued delivered queue next)
    (hstep : Passage keep number queue next given added queue' next') :
    Ledger keep number (issued ++ added) (delivered ++ given) queue' next' := by
  obtain ⟨kept, hthin, rfl⟩ := hstep.exists_kept
  refine ⟨h.numbers.append ?_, ?_, ?_⟩
  · have hnext := h.next_eq
    have hnumbers := hstep.numbers
    rw [hnext] at hnumbers
    rwa [Nat.add_comm]
  · rw [hstep.next_eq, h.next_eq, List.length_append]
    omega
  · have hfront : Thinned keep issued (delivered ++ given ++ kept) := by
      rw [List.append_assoc]
      exact h.thinned.trans ((Thinned.refl keep delivered).append hthin)
    have hall := hfront.append (Thinned.refl keep added)
    simpa [List.append_assoc] using hall

/-- Everything is delivered or waits in the order it was issued in, no number twice. -/
theorem Ledger.sorted (h : Ledger keep number issued delivered queue next) :
    ((delivered ++ queue).map number).Pairwise (· < ·) := by
  refine List.Pairwise.sublist (h.thinned.sublist.map number) ?_
  rw [h.numbers]
  exact List.pairwise_lt_range'

/-- What cannot be withdrawn is delivered or waits. -/
theorem Ledger.complete (h : Ledger keep number issued delivered queue next) {x : α}
    (hx : x ∈ issued) (hkeep : keep x) : x ∈ delivered ∨ x ∈ queue := by
  have hmem : x ∈ (delivered ++ queue).filter keep := by
    rw [h.thinned.kept]
    exact List.mem_filter.2 ⟨hx, hkeep⟩
  exact List.mem_append.1 (List.mem_filter.1 hmem).1

end Ledger

section Passage

variable {keep : α → Bool} {number : α → ℕ} {queue delivered added queue' delivered' added' : List α}
  {next next' : ℕ} {queue'' : List α} {next'' : ℕ}

theorem Passage.refl (keep : α → Bool) (number : α → ℕ) (queue : List α) (next : ℕ) :
    Passage keep number queue next [] [] queue next :=
  ⟨⟨queue, .refl _ _, (List.append_nil _).symm⟩, rfl, rfl⟩

/-- A step that adds nothing, followed by any step. -/
theorem Passage.trans (h : Passage keep number queue next delivered [] queue' next')
    (h' : Passage keep number queue' next' delivered' added' queue'' next'') :
    Passage keep number queue next (delivered ++ delivered') added' queue'' next'' := by
  obtain ⟨kept, hthin, rfl⟩ := h.exists_kept
  obtain ⟨kept', hthin', rfl⟩ := h'.exists_kept
  have hnext : next' = next := h.next_eq
  rw [List.append_nil] at hthin'
  subst hnext
  refine ⟨⟨kept', ?_, rfl⟩, h'.numbers, h'.next_eq⟩
  rw [List.append_assoc]
  exact hthin.trans ((Thinned.refl keep delivered).append hthin')

/-- The added messages, read off the queue by their numbers. -/
theorem Passage.new_eq (h : Passage keep number queue next delivered added queue' next')
    (hbelow : ∀ x ∈ queue, number x < next) :
    queue'.filter (fun x => decide (next ≤ number x)) = added := by
  obtain ⟨kept, hthin, rfl⟩ := h.exists_kept
  have hold : kept.filter (fun x => decide (next ≤ number x)) = [] := by
    rw [List.filter_eq_nil_iff]
    intro x hx
    have hmem : x ∈ queue := hthin.sublist.subset (List.mem_append_right _ hx)
    simpa using hbelow x hmem
  have hnew : added.filter (fun x => decide (next ≤ number x)) = added := by
    rw [List.filter_eq_self]
    intro x hx
    simpa using (h.numbers.bounds hx).1
  rw [List.filter_append, hold, hnew, List.nil_append]

/-- Numbers stay below the next one. -/
theorem Passage.below (h : Passage keep number queue next delivered added queue' next')
    (hbelow : ∀ x ∈ queue, number x < next) : ∀ x ∈ queue', number x < next' := by
  obtain ⟨kept, hthin, rfl⟩ := h.exists_kept
  intro x hx
  have hnext := h.next_eq
  rcases List.mem_append.1 hx with hx | hx
  · have hmem : x ∈ queue := hthin.sublist.subset (List.mem_append_right _ hx)
    have := hbelow x hmem
    omega
  · have := (h.numbers.bounds hx).2
    omega

end Passage

end Delivery
