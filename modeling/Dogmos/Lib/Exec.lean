import Mathlib.Tactic.Common

/-!
# Computations over a state that may fail

A method that updates its receiver and returns a result is a computation
`Exec ε σ α`: from a state it gives either a value or an error, and in both
cases the state it reached.  A failure does not roll the state back; a method
that wants to leave its receiver alone checks first and writes afterwards.

What is proved here:

* **running** — `run_pure`, `run_bind`, `run_throw`, `run_get`, `run_modify`: the
  equations that execute a computation step by step;
* **unary rules** — `Keeps`, the triple of an invariant, with `keeps_bind` and
  `keeps_forM`, and `Triple` (a precondition, a postcondition for values and
  one for errors) with `triple_bind`;
* **rules for outcomes** — `run_bind_eq_ok` and `run_bind_eq_error` take a computation that
  returned, or failed, apart, and `foldlM_done` is the loop rule for one that returned;
* **relational rules** — `Sim`, which runs two computations side by side from
  related states, with `sim_bind` and `sim_forM`.
-/

/-- A computation over the state `σ` that returns an `α` or fails with an `ε`. -/
abbrev Exec (ε σ α : Type) := ExceptT ε (StateM σ) α

namespace Exec

variable {ε σ α β τ : Type}

/-- The outcome of a computation from a state: its result and the state it reached. -/
def run (m : Exec ε σ α) (s : σ) : Except ε α × σ := m s

/-- The state a computation leaves, whether it succeeded or not. -/
def final (m : Exec ε σ α) (s : σ) : σ := (run m s).2

/-- The result of a computation. -/
def result (m : Exec ε σ α) (s : σ) : Except ε α := (run m s).1

/-- Fails where a check of the current state fails, and returns what it found otherwise. -/
def check (f : σ → Except ε α) : Exec ε σ α := do
  match f (← get) with
  | .ok a => pure a
  | .error e => throw e

/-- A computation on a part of a larger state, with its errors read as errors of the larger
computation. -/
def embed {ε' : Type} (view : τ → σ) (put : τ → σ → τ) (mapError : ε → ε') (m : Exec ε σ α) :
    Exec ε' τ α := do
  let t ← get
  let (result, s) := run m (view t)
  set (put t s)
  match result with
  | .ok a => pure a
  | .error e => throw (mapError e)

/-- Runs a computation and hands on its outcome, a value or an error, as a value. -/
def attempt (m : Exec ε σ α) : Exec ε σ (Except ε α) := fun s => (.ok (run m s).1, (run m s).2)

/-! ## Running -/

@[simp] theorem run_attempt (m : Exec ε σ α) (s : σ) :
    run (attempt m) s = (.ok (run m s).1, (run m s).2) := rfl

@[simp] theorem run_pure (a : α) (s : σ) : run (pure a : Exec ε σ α) s = (.ok a, s) := rfl

@[simp] theorem run_throw (e : ε) (s : σ) :
    run (throw e : Exec ε σ α) s = (.error e, s) := rfl

@[simp] theorem run_get (s : σ) : run (get : Exec ε σ σ) s = (.ok s, s) := rfl

@[simp] theorem run_set (s t : σ) : run (set t : Exec ε σ PUnit) s = (.ok ⟨⟩, t) := rfl

@[simp] theorem run_modify (f : σ → σ) (s : σ) :
    run (modify f : Exec ε σ PUnit) s = (.ok ⟨⟩, f s) := rfl

theorem run_bind (m : Exec ε σ α) (f : α → Exec ε σ β) (s : σ) :
    run (m >>= f) s =
      match run m s with
      | (.ok a, t) => run (f a) t
      | (.error e, t) => (.error e, t) := by
  rcases h : run m s with ⟨r, t⟩
  have h' : m s = (r, t) := h
  show (ExceptT.bind m f) s = _
  simp only [ExceptT.bind, ExceptT.mk, StateT.bind, Bind.bind, h']
  cases r <;> rfl

theorem run_bind_ok {m : Exec ε σ α} {f : α → Exec ε σ β} {s t : σ} {a : α}
    (h : run m s = (.ok a, t)) : run (m >>= f) s = run (f a) t := by
  rw [run_bind, h]

theorem run_bind_error {m : Exec ε σ α} {f : α → Exec ε σ β} {s t : σ} {e : ε}
    (h : run m s = (.error e, t)) : run (m >>= f) s = (.error e, t) := by
  rw [run_bind, h]

@[simp] theorem run_map (f : α → β) (m : Exec ε σ α) (s : σ) :
    run (f <$> m) s = ((run m s).1.map f, (run m s).2) := by
  rw [map_eq_pure_bind, run_bind]
  rcases run m s with ⟨r, t⟩
  cases r <;> rfl

@[simp] theorem run_check (f : σ → Except ε α) (s : σ) : run (check f) s = (f s, s) := by
  rw [check, run_bind, run_get]
  show run (match f s with | .ok a => pure a | .error e => throw e) s = _
  cases f s <;> rfl

@[simp] theorem run_ite {c : Prop} [Decidable c] (m n : Exec ε σ α) (s : σ) :
    run (if c then m else n) s = if c then run m s else run n s := by
  split <;> rfl

theorem run_forM_cons (x : α) (xs : List α) (f : α → Exec ε σ PUnit) (s : σ) :
    run ((x :: xs).forM f) s = run (f x >>= fun _ => xs.forM f) s := rfl

/-- A loop that fails at one element has run for the elements before it. -/
theorem run_forM_stop {f : α → Exec ε σ PUnit} {x : α} {t u : σ} {e : ε} (ys : List α)
    (hx : run (f x) t = (.error e, u)) (xs : List α) : ∀ s : σ,
    run (xs.forM f) s = (.ok ⟨⟩, t) → run ((xs ++ x :: ys).forM f) s = (.error e, u) := by
  induction xs with
  | nil =>
    intro s hs
    cases hs
    exact run_bind_error hx
  | cons y zs ih =>
    intro s hs
    rw [run_forM_cons, run_bind] at hs
    rw [List.cons_append, run_forM_cons, run_bind]
    rcases hy : run (f y) s with ⟨error | value, v⟩
    · rw [hy] at hs
      cases hs
    · rw [hy] at hs
      exact ih v hs

theorem run_embed {ε' : Type} (view : τ → σ) (put : τ → σ → τ) (mapError : ε → ε')
    (m : Exec ε σ α) (t : τ) :
    run (embed view put mapError m) t =
      ((run m (view t)).1.mapError mapError, put t (run m (view t)).2) := by
  unfold embed
  rw [run_bind, run_get]
  dsimp only
  rcases run m (view t) with ⟨r, s⟩
  dsimp only
  rw [run_bind, run_set]
  cases r <;> rfl

/-! ## Invariants -/

/-- The computation keeps an invariant of the state, whether it succeeds or fails. -/
def Keeps (I : σ → Prop) (m : Exec ε σ α) : Prop := ∀ s, I s → I (run m s).2

section Keeps

variable {I : σ → Prop}

theorem Keeps.of_run {m : Exec ε σ α} (h : Keeps I m) {s t : σ} {result : Except ε α}
    (hrun : run m s = (result, t)) (hs : I s) : I t := by
  have ht := h s hs
  rwa [hrun] at ht

theorem keeps_pure (a : α) : Keeps I (pure a : Exec ε σ α) := fun _ h => h

theorem keeps_throw (e : ε) : Keeps I (throw e : Exec ε σ α) := fun _ h => h

theorem keeps_get : Keeps I (get : Exec ε σ σ) := fun _ h => h

theorem keeps_check (f : σ → Except ε α) : Keeps I (check f) := by
  intro s h
  rwa [run_check]

theorem keeps_modify {f : σ → σ} (h : ∀ s, I s → I (f s)) :
    Keeps I (modify f : Exec ε σ PUnit) := h

theorem keeps_bind {m : Exec ε σ α} {f : α → Exec ε σ β}
    (hm : Keeps I m) (hf : ∀ a, Keeps I (f a)) : Keeps I (m >>= f) := by
  intro s hs
  have h := hm s hs
  rw [run_bind]
  rcases hr : run m s with ⟨r, t⟩
  rw [hr] at h
  cases r with
  | error e => exact h
  | ok a => exact hf a t h

theorem keeps_check_bind {f : σ → Except ε α} {g : α → Exec ε σ β} (h : ∀ a, Keeps I (g a)) :
    Keeps I (check f >>= g) := keeps_bind (keeps_check f) h

theorem keeps_check_bind_of {f : σ → Except ε α} {g : α → Exec ε σ β}
    (h : ∀ s a, I s → f s = .ok a → Keeps I (g a)) : Keeps I (check f >>= g) := by
  intro s hs
  rw [run_bind, run_check]
  rcases hf : f s with e | a
  · exact hs
  · exact h s a hs hf s hs

theorem keeps_pure_bind {a : α} {f : α → Exec ε σ β} (h : Keeps I (f a)) :
    Keeps I (pure a >>= f) := h

/-- The computation keeps an invariant and returns only values with a property. -/
def Gives (I : σ → Prop) (m : Exec ε σ α) (Q : α → Prop) : Prop :=
  ∀ s, I s → I (run m s).2 ∧ ∀ a, (run m s).1 = .ok a → Q a

theorem Gives.bind {m : Exec ε σ α} {f : α → Exec ε σ β} {Q : α → Prop} (hm : Gives I m Q)
    (hf : ∀ a, Q a → Keeps I (f a)) : Keeps I (m >>= f) := by
  intro s hs
  obtain ⟨hI, hQ⟩ := hm s hs
  rw [run_bind]
  rcases hr : run m s with ⟨r, t⟩
  rw [hr] at hI hQ
  cases r with
  | error e => exact hI
  | ok a => exact hf a (hQ a rfl) t hI

theorem Gives.bind_gives {m : Exec ε σ α} {f : α → Exec ε σ β} {Q : α → Prop} {R : β → Prop}
    (hm : Gives I m Q) (hf : ∀ a, Q a → Gives I (f a) R) : Gives I (m >>= f) R := by
  intro s hs
  obtain ⟨hI, hQ⟩ := hm s hs
  rw [run_bind]
  rcases hr : run m s with ⟨r, t⟩
  rw [hr] at hI hQ
  cases r with
  | error e => exact ⟨hI, fun b hb => by cases hb⟩
  | ok a => exact hf a (hQ a rfl) t hI

theorem keeps_get_bind {g : σ → Exec ε σ β} (h : ∀ s, Keeps I (g s)) : Keeps I (get >>= g) :=
  keeps_bind keeps_get h

theorem keeps_get_bind_at {g : σ → Exec ε σ β} (h : ∀ s, I s → I (run (g s) s).2) :
    Keeps I (get >>= g) := by
  intro s hs
  rw [run_bind, run_get]
  exact h s hs

/-- A computation on a part of a larger state keeps what every outcome on that part keeps. -/
theorem keeps_embed {ε' : Type} {J : τ → Prop} {view : τ → σ} {put : τ → σ → τ}
    {mapError : ε → ε'} {m : Exec ε σ α} (h : ∀ t, J t → J (put t (run m (view t)).2)) :
    Keeps J (embed view put mapError m) := by
  intro t ht
  rw [run_embed]
  exact h t ht

theorem keeps_map {m : Exec ε σ α} (f : α → β) (hm : Keeps I m) : Keeps I (f <$> m) := by
  intro s hs
  rw [run_map]
  exact hm s hs

theorem keeps_ite {c : Prop} [Decidable c] {m n : Exec ε σ α}
    (hm : c → Keeps I m) (hn : ¬c → Keeps I n) : Keeps I (if c then m else n) := by
  split
  · exact hm ‹_›
  · exact hn ‹_›

theorem keeps_forM {xs : List α} {f : α → Exec ε σ PUnit}
    (h : ∀ x ∈ xs, Keeps I (f x)) : Keeps I (xs.forM f) := by
  induction xs with
  | nil => exact keeps_pure _
  | cons x t ih =>
    refine keeps_bind (h x (by simp)) fun _ => ih ?_
    intro y hy
    exact h y (by simp [hy])

theorem keeps_foldlM {xs : List α} {f : β → α → Exec ε σ β}
    (h : ∀ b, ∀ x ∈ xs, Keeps I (f b x)) (b : β) : Keeps I (xs.foldlM f b) := by
  induction xs generalizing b with
  | nil => exact keeps_pure _
  | cons x t ih =>
    rw [List.foldlM_cons]
    refine keeps_bind (h b x (by simp)) fun b' => ih ?_ b'
    intro b'' y hy
    exact h b'' y (by simp [hy])

end Keeps

/-! ## Pre- and postconditions -/

/-- From every state that meets `P`, a value is returned in a state that meets `Q` with it,
and an error leaves a state that meets `E`. -/
def Triple (P : σ → Prop) (m : Exec ε σ α) (Q : α → σ → Prop) (E : ε → σ → Prop) : Prop :=
  ∀ s, P s →
    match run m s with
    | (.ok a, t) => Q a t
    | (.error e, t) => E e t

section Triple

variable {P : σ → Prop} {Q : α → σ → Prop} {R : β → σ → Prop} {E : ε → σ → Prop}

theorem triple_pure {a : α} (h : ∀ s, P s → Q a s) : Triple P (pure a) Q E := h

theorem triple_throw {e : ε} (h : ∀ s, P s → E e s) : Triple P (throw e) Q E := h

theorem triple_modify {f : σ → σ} {Q : PUnit → σ → Prop} (h : ∀ s, P s → Q ⟨⟩ (f s)) :
    Triple P (modify f) Q E := h

theorem triple_check {f : σ → Except ε α} (hok : ∀ s a, P s → f s = .ok a → Q a s)
    (herr : ∀ s e, P s → f s = .error e → E e s) : Triple P (check f) Q E := by
  intro s hs
  rw [run_check]
  rcases h : f s with e | a
  · exact herr s e hs h
  · exact hok s a hs h

theorem triple_bind {m : Exec ε σ α} {f : α → Exec ε σ β}
    (hm : Triple P m Q E) (hf : ∀ a, Triple (Q a) (f a) R E) : Triple P (m >>= f) R E := by
  intro s hs
  have h := hm s hs
  rw [run_bind]
  rcases hr : run m s with ⟨r, t⟩
  rw [hr] at h
  cases r with
  | error e => exact h
  | ok a => exact hf a t h

theorem triple_mono {m : Exec ε σ α} {P' : σ → Prop} {Q' : α → σ → Prop} {E' : ε → σ → Prop}
    (h : Triple P m Q E) (hP : ∀ s, P' s → P s) (hQ : ∀ a s, Q a s → Q' a s)
    (hE : ∀ e s, E e s → E' e s) : Triple P' m Q' E' := by
  intro s hs
  have h := h s (hP s hs)
  rcases hr : run m s with ⟨r, t⟩
  rw [hr] at h
  cases r with
  | error e => exact hE e t h
  | ok a => exact hQ a t h

/-- Two triples of one computation. -/
theorem Triple.and {m : Exec ε σ α} {P' : σ → Prop} {Q' : α → σ → Prop} {E' : ε → σ → Prop}
    (h : Triple P m Q E) (h' : Triple P' m Q' E') :
    Triple (fun s => P s ∧ P' s) m (fun a s => Q a s ∧ Q' a s) fun e s => E e s ∧ E' e s := by
  intro s hs
  have h := h s hs.1
  have h' := h' s hs.2
  rcases hr : run m s with ⟨r, t⟩
  rw [hr] at h h'
  cases r with
  | error e => exact ⟨h, h'⟩
  | ok a => exact ⟨h, h'⟩

theorem triple_get_bind {g : σ → Exec ε σ β} (h : ∀ s, P s → Triple (fun t => t = s) (g s) R E) :
    Triple P (get >>= g) R E := by
  intro s hs
  rw [run_bind, run_get]
  exact h s hs s rfl

theorem triple_check_bind {f : σ → Except ε α} {g : α → Exec ε σ β}
    (hok : ∀ a, Triple (fun s => P s ∧ f s = .ok a) (g a) R E)
    (herr : ∀ s e, P s → f s = .error e → E e s) : Triple P (check f >>= g) R E := by
  intro s hs
  rw [run_bind, run_check]
  rcases hf : f s with e | a
  · exact herr s e hs hf
  · exact hok a s ⟨hs, hf⟩

theorem triple_ite {c : Prop} [Decidable c] {m n : Exec ε σ α} (hm : c → Triple P m Q E)
    (hn : ¬c → Triple P n Q E) : Triple P (if c then m else n) Q E := by
  split
  · exact hm ‹_›
  · exact hn ‹_›

theorem triple_modify_bind {f : σ → σ} {m : PUnit → Exec ε σ β}
    (h : Triple (fun t => ∃ s, P s ∧ t = f s) (m ⟨⟩) R E) : Triple P (modify f >>= m) R E := by
  intro s hs
  rw [run_bind, run_modify]
  exact h (f s) ⟨s, hs, rfl⟩

theorem triple_forM {xs : List α} {f : α → Exec ε σ PUnit} {J : σ → Prop}
    (h : ∀ x ∈ xs, Triple J (f x) (fun _ => J) E) : Triple J (xs.forM f) (fun _ => J) E := by
  induction xs with
  | nil => exact triple_pure fun _ hs => hs
  | cons x t ih =>
    refine triple_bind (h x (by simp)) fun _ => ih ?_
    intro y hy
    exact h y (by simp [hy])

/-- What a computation keeps is a pre- and postcondition of it. -/
theorem triple_of_keeps {m : Exec ε σ α} {J : σ → Prop} (h : Keeps J m)
    (hE : ∀ e s, J s → E e s) : Triple J m (fun _ => J) E := by
  intro s hs
  have h := h s hs
  rcases hr : run m s with ⟨r, t⟩
  rw [hr] at h
  cases r with
  | error e => exact hE e t h
  | ok a => exact h

/-- The state a computation leaves, from what holds after values and after errors. -/
theorem Triple.final {m : Exec ε σ α} {J : σ → Prop} (h : Triple P m (fun _ => J) fun _ => J) {s : σ}
    (hs : P s) : J (m.final s) := by
  have h := h s hs
  unfold Exec.final
  rcases hr : run m s with ⟨r, t⟩
  rw [hr] at h
  cases r with
  | error e => exact h
  | ok a => exact h

/-- The state a computation leaves when it returns a value. -/
theorem Triple.of_ok {m : Exec ε σ α} (h : Triple P m Q E) {s : σ} (hs : P s) {a : α}
    (ha : m.result s = .ok a) : Q a (m.final s) := by
  have h := h s hs
  unfold Exec.result at ha
  unfold Exec.final
  rcases hr : run m s with ⟨r, t⟩
  rw [hr] at h ha
  cases ha
  exact h

end Triple

/-! ## Computations by their outcome -/

section Outcomes

variable {s t : σ}

theorem eq_ok_of_toOption {result : Except ε α} {a : α} (h : result.toOption = some a) :
    result = .ok a := by
  rcases result with error | value
  · cases h
  · cases h
    rfl

theorem run_bind_eq_ok {m : Exec ε σ α} {f : α → Exec ε σ β} {b : β} :
    run (m >>= f) s = (.ok b, t) ↔ ∃ a u, run m s = (.ok a, u) ∧ run (f a) u = (.ok b, t) := by
  rw [run_bind]
  rcases run m s with ⟨e | a, u⟩
  · simp
  · constructor
    · intro h
      exact ⟨a, u, rfl, h⟩
    · rintro ⟨a', u', heq, h⟩
      cases heq
      exact h

theorem run_bind_eq_error {m : Exec ε σ α} {f : α → Exec ε σ β} {e : ε} :
    run (m >>= f) s = (.error e, t) ↔
      run m s = (.error e, t) ∨ ∃ a u, run m s = (.ok a, u) ∧ run (f a) u = (.error e, t) := by
  rw [run_bind]
  rcases run m s with ⟨e' | a, u⟩
  · simp
  · simp

theorem run_map_eq_ok {f : α → β} {m : Exec ε σ α} {b : β} :
    run (f <$> m) s = (.ok b, t) ↔ ∃ a, run m s = (.ok a, t) ∧ f a = b := by
  rw [run_map]
  rcases run m s with ⟨e | a, u⟩
  · simp [Except.map]
  · simp [Except.map, and_comm]

theorem run_map_eq_error {f : α → β} {m : Exec ε σ α} {e : ε} :
    run (f <$> m) s = (.error e, t) ↔ run m s = (.error e, t) := by
  rw [run_map]
  rcases run m s with ⟨e | a, u⟩
  · simp [Except.map]
  · simp [Except.map]

theorem run_modify_bind {f : σ → σ} {m : PUnit → Exec ε σ β} :
    run (modify f >>= m) s = run (m ⟨⟩) (f s) := run_bind_ok (run_modify f s)

theorem run_check_eq_error {f : σ → Except ε α} {e : ε} :
    run (check f) s = (.error e, t) ↔ f s = .error e ∧ t = s := by
  rw [run_check, Prod.mk.injEq]
  exact and_congr_right fun _ => eq_comm

theorem run_check_eq_ok {f : σ → Except ε α} {a : α} :
    run (check f) s = (.ok a, t) ↔ f s = .ok a ∧ t = s := by
  rw [run_check, Prod.mk.injEq]
  exact and_congr_right fun _ => eq_comm

/-- A loop that returns keeps what each of its steps keeps of the elements that are done. -/
theorem foldlM_done {xs : List α} {f : β → α → Exec ε σ β} {b b' : β} {J : List α → β → σ → Prop}
    (hrun : run (xs.foldlM f b) s = (.ok b', t)) (hstart : J [] b s)
    (hstep : ∀ done x rest b s b' s', xs = done ++ x :: rest → J done b s →
      run (f b x) s = (.ok b', s') → J (done ++ [x]) b' s') : J xs b' t := by
  have hrest : ∀ rest done b s, xs = done ++ rest → J done b s →
      run (rest.foldlM f b) s = (.ok b', t) → J xs b' t := by
    intro rest
    induction rest with
    | nil =>
      intro done b s heq hdone hrun
      cases hrun
      rwa [heq, List.append_nil]
    | cons x rest ih =>
      intro done b s heq hdone hrun
      rw [List.foldlM_cons, run_bind_eq_ok] at hrun
      obtain ⟨b₁, s₁, hx, hrun⟩ := hrun
      refine ih (done ++ [x]) b₁ s₁ ?_ (hstep done x rest b s b₁ s₁ heq hdone hx) hrun
      rw [heq, List.append_assoc, List.singleton_append]
  exact hrest xs [] b s rfl hstart hrun

end Outcomes

/-! ## Two computations side by side -/

/-- From states related by `R`, the two computations return the same result and leave states
related by `R` again. -/
def Sim (R : σ → τ → Prop) (m : Exec ε σ α) (n : Exec ε τ α) : Prop :=
  ∀ s t, R s t → (run m s).1 = (run n t).1 ∧ R (run m s).2 (run n t).2

section Sim

variable {R : σ → τ → Prop}

theorem sim_pure (a : α) : Sim R (pure a : Exec ε σ α) (pure a) := fun _ _ h => ⟨rfl, h⟩

theorem sim_modify {f : σ → σ} {g : τ → τ} (h : ∀ s t, R s t → R (f s) (g t)) :
    Sim R (modify f : Exec ε σ PUnit) (modify g) := fun s t hst => ⟨rfl, h s t hst⟩

theorem sim_check {f : σ → Except ε α} {g : τ → Except ε α}
    (h : ∀ s t, R s t → f s = g t) : Sim R (check f) (check g) := by
  intro s t hst
  rw [run_check, run_check]
  exact ⟨h s t hst, hst⟩

theorem sim_bind {m : Exec ε σ α} {n : Exec ε τ α} {f : α → Exec ε σ β} {g : α → Exec ε τ β}
    (hm : Sim R m n) (hf : ∀ a, Sim R (f a) (g a)) : Sim R (m >>= f) (n >>= g) := by
  intro s t hst
  obtain ⟨hres, hfin⟩ := hm s t hst
  rw [run_bind, run_bind]
  rcases hr : run m s with ⟨r, s'⟩
  rcases hr' : run n t with ⟨r', t'⟩
  rw [hr, hr'] at hres hfin
  cases hres
  cases r with
  | error e => exact ⟨rfl, hfin⟩
  | ok a => exact hf a s' t' hfin

theorem sim_get_bind {f : σ → Exec ε σ β} {g : τ → Exec ε τ β}
    (h : ∀ s t, R s t → Sim R (f s) (g t)) : Sim R (get >>= f) (get >>= g) := by
  intro s t hst
  rw [run_bind, run_bind, run_get, run_get]
  exact h s t hst s t hst

theorem sim_forM {xs : List α} {f : α → Exec ε σ PUnit} {g : α → Exec ε τ PUnit}
    (h : ∀ x ∈ xs, Sim R (f x) (g x)) : Sim R (xs.forM f) (xs.forM g) := by
  induction xs with
  | nil => exact sim_pure _
  | cons x t ih =>
    refine sim_bind (h x (by simp)) fun _ => ih ?_
    intro y hy
    exact h y (by simp [hy])

end Sim

end Exec
