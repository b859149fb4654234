import Dogmos.Runs.FrontierCalls
import Dogmos.Runs.Records
import Dogmos.Runs.Registries
import Dogmos.Runs.SingleUse

/-!
# Reaction sequences that pause

A sequence stops at each reaction the client runs and goes on from there when it
is resumed.  `evaluateOrder` is the same priority order evaluated in one go, in
which the client's reactions change nothing.  The calls of a sequence finish the
native reactions of that evaluation, in its order, and leave its mixture
(`pauses_transparent`), when the evaluation writes the mixture back where the
sequence does.  Writing back drops trace amounts, so without that a later reaction
can see more than it does after a pause (`trace_dropped_at_pause`).

* `runReactions_spec` — what one call evaluates of the order.
* `SequenceRun` — the calls of one sequence, with other operations between them.
* `SequenceRun.spec` — what the calls so far evaluate of the order.
-/

namespace Dogmos

variable {F D : Type}

/-! ## Events -/

/-- The reaction that an event reports as finished, or hands to the client. -/
def WorldEvent.executes : WorldEvent F → Option ReactionId
  | .reactionFinished _ _ reaction _ _ => some reaction
  | .runDmReaction _ _ _ reaction _ => some reaction
  | _ => none

/-- Whether an event reports a native reaction as finished. -/
def WorldEvent.isFinished : WorldEvent F → Bool
  | .reactionFinished .. => true
  | _ => false

/-- The token under which the client resumes the sequence that an event stops. -/
def WorldEvent.resumedBy : WorldEvent F → Option ReactionContinuationToken
  | .runDmReaction _ _ _ _ token => some token
  | _ => none

/-- The operations that resume a sequence under a token with result 0. -/
inductive Op.Resumes (token : ReactionContinuationToken) : Op F D → Prop
  | request (eventLimit clock) : Resumes token (.resumeReaction token 0 eventLimit clock)
  | command (clock) : Resumes token (.applyCommand (.resumeReaction token) clock)

/-! ## The order in one go -/

variable [FloatFormat F]

/-- A record as a sequence writes it back: traces are dropped and the revision goes up. -/
def MixtureRecord.committed (record : MixtureRecord F) : MixtureRecord F :=
  { record with gases := canonicalizeGases record.gases, revision := record.revision + 1 }

/-- The record that a sequence leaves. -/
def ReactionSequence.written (sequence : ReactionSequence F) : MixtureRecord F :=
  if 0 < sequence.nativeUpdates then sequence.mixture.committed else sequence.mixture

/-- What an evaluation leaves of a mixture, and the events of its native reactions. -/
structure Evaluated (F : Type) where
  mixture : MixtureRecord F
  finished : List (WorldEvent F)

/-- The evaluation behind events that came before it. -/
def Evaluated.after (finished : List (WorldEvent F)) (evaluated : Evaluated F) : Evaluated F :=
  { evaluated with finished := finished ++ evaluated.finished }

variable (gases : GasMetadataRegistry F) (reactions : ReactionMetadataRegistry F)
  (handle : MixtureHandle) (target : GameplayHandle)

/-- **The priority order in one go**: the reactions of the client change nothing.  The mixture is
written back at the end when a native reaction changed it, and with `commits` also where the order
comes to a reaction of the client. -/
def evaluateOrder (commits : Bool) :
    List ReactionId → Bool → MixtureRecord F → Except WorldError (Evaluated F)
  | [], changed, mixture => .ok ⟨if changed then mixture.committed else mixture, []⟩
  | id :: rest, changed, mixture =>
    if !reactions.isReactable id mixture.temperature mixture.gases gases then
      evaluateOrder commits rest changed mixture
    else
      match (reactions.byId id).map ReactionMetadata.execution with
      | none => evaluateOrder commits rest changed mixture
      | some .dm =>
        if commits && changed then evaluateOrder commits rest false mixture.committed
        else evaluateOrder commits rest changed mixture
      | some (.native kind) =>
        match executeNative kind mixture.gases mixture.temperature mixture.volume
            mixture.minimumHeatCapacity gases with
        | .error error => .error (.state error.display)
        | .ok none => evaluateOrder commits rest changed mixture
        | .ok (some outcome) =>
          (evaluateOrder commits rest true
            { mixture with gases := outcome.gases, temperature := outcome.temperature }).map
              (Evaluated.after [.reactionFinished handle target id kind outcome.values])

/-- The order in one go on a mixture, which has to be mutable to react. -/
def evaluateMixture (commits : Bool) (mixture : MixtureRecord F) :
    Except WorldError (Evaluated F) :=
  if mixture.immutable then .ok ⟨mixture, []⟩
  else evaluateOrder gases reactions handle target commits reactions.priorityOrder false mixture

/-! ## Where writing back changes nothing -/

/-- The evaluation in one go comes to no reaction of the client with amounts that writing back
would drop. -/
def KeepsTraces : List ReactionId → Bool → MixtureRecord F → Prop
  | [], _, _ => True
  | id :: rest, changed, mixture =>
    if !reactions.isReactable id mixture.temperature mixture.gases gases then
      KeepsTraces rest changed mixture
    else
      match (reactions.byId id).map ReactionMetadata.execution with
      | none => KeepsTraces rest changed mixture
      | some .dm => (changed = true → canonicalizeGases mixture.gases = mixture.gases) ∧
        KeepsTraces rest changed mixture
      | some (.native kind) =>
        match executeNative kind mixture.gases mixture.temperature mixture.volume
            mixture.minimumHeatCapacity gases with
        | .error _ => True
        | .ok none => KeepsTraces rest changed mixture
        | .ok (some outcome) => KeepsTraces rest true
          { mixture with gases := outcome.gases, temperature := outcome.temperature }

/-- The two evaluations agree, whatever the revision is. -/
def AgreeUpToRevision (a b : Except WorldError (Evaluated F)) : Prop :=
  match a, b with
  | .error error, .error error' => error = error'
  | .ok e, .ok e' => e.finished = e'.finished ∧
    ∃ revision, e'.mixture = { e.mixture with revision }
  | _, _ => False

variable {gases reactions handle target}

omit [FloatFormat F] in
theorem AgreeUpToRevision.map_after {a b : Except WorldError (Evaluated F)}
    (h : AgreeUpToRevision a b) (finished : List (WorldEvent F)) :
    AgreeUpToRevision (a.map (Evaluated.after finished)) (b.map (Evaluated.after finished)) := by
  cases a with
  | error error =>
    cases b with
    | error error' => exact h
    | ok e' => exact h
  | ok e =>
    cases b with
    | error error' => exact h
    | ok e' => exact ⟨congrArg (finished ++ ·) h.1, h.2⟩

/-- **Where no pause drops an amount**, writing back there changes only the revision. -/
theorem agree_of_keepsTraces : ∀ (order : List ReactionId) (changed written : Bool)
    (mixture : MixtureRecord F) (revision : UInt32),
    (written = changed ∨ changed = true ∧ canonicalizeGases mixture.gases = mixture.gases) →
    KeepsTraces gases reactions order changed mixture →
      AgreeUpToRevision (evaluateOrder gases reactions handle target false order changed mixture)
        (evaluateOrder gases reactions handle target true order written
          { mixture with revision }) := by
  intro order
  induction order with
  | nil =>
    intro changed written mixture revision hwritten _
    unfold evaluateOrder
    refine ⟨rfl, ?_⟩
    unfold MixtureRecord.committed
    rcases hwritten with rfl | ⟨rfl, hclean⟩
    · cases written
      · exact ⟨revision, rfl⟩
      · exact ⟨revision + 1, rfl⟩
    · cases written
      · exact ⟨revision, by simp [hclean]⟩
      · exact ⟨revision + 1, rfl⟩
  | cons id rest ih =>
    intro changed written mixture revision hwritten hkeeps
    unfold KeepsTraces at hkeeps
    unfold evaluateOrder
    dsimp only
    by_cases hreactable : (!reactions.isReactable id mixture.temperature mixture.gases gases) = true
    · rw [if_pos hreactable] at hkeeps ⊢
      rw [if_pos hreactable]
      exact ih changed written mixture revision hwritten hkeeps
    rw [if_neg hreactable] at hkeeps ⊢
    rw [if_neg hreactable]
    rcases hexecution : (reactions.byId id).map ReactionMetadata.execution with
      _ | (kind | _)
    · rw [hexecution] at hkeeps
      exact ih changed written mixture revision hwritten hkeeps
    · rw [hexecution] at hkeeps
      dsimp only at hkeeps ⊢
      rcases hnative : executeNative kind mixture.gases mixture.temperature mixture.volume
          mixture.minimumHeatCapacity gases with error | (_ | outcome)
      · exact rfl
      · rw [hnative] at hkeeps
        exact ih changed written mixture revision hwritten hkeeps
      · rw [hnative] at hkeeps
        exact (ih true true _ revision (.inl rfl) hkeeps).map_after _
    · rw [hexecution] at hkeeps
      obtain ⟨hclean, hkeeps⟩ := hkeeps
      dsimp only
      rw [Bool.false_and, if_neg Bool.false_ne_true]
      cases written with
      | false =>
        rw [Bool.and_false, if_neg Bool.false_ne_true]
        exact ih changed false mixture revision hwritten hkeeps
      | true =>
        have hchanged : changed = true := by
          rcases hwritten with hsame | ⟨hchanged, -⟩
          · exact hsame.symm
          · exact hchanged
        rw [Bool.and_true, if_pos rfl]
        have hcommitted : MixtureRecord.committed { mixture with revision } =
            { mixture with revision := revision + 1 } := by
          unfold MixtureRecord.committed
          dsimp only
          rw [hclean hchanged]
        rw [hcommitted]
        exact ih changed false mixture (revision + 1) (.inr ⟨hchanged, hclean hchanged⟩) hkeeps

/-! ## What one call evaluates -/

namespace DogmosWorld

open Exec

/-- What is left of an order when a call ends. -/
def remainingOrder (order : List ReactionId) : Option PendingDmReaction → List ReactionId
  | none => []
  | some pending => pending.reaction :: order.drop pending.nextReactionIndex.toNat

/-- What a call does with the order from `n` on. -/
structure Evaluates (gases : GasMetadataRegistry F) (reactions : ReactionMetadataRegistry F)
    (handle : MixtureHandle) (target : GameplayHandle) (order : List ReactionId) (n : Nat)
    (sequence result : ReactionSequence F) (events : List (WorldEvent F)) : Prop where
  emits : result.events = sequence.events ++ events
  mixture : result.mixture = { sequence.mixture with
    gases := result.mixture.gases, temperature := result.mixture.temperature }
  quiet : result.nativeUpdates = 0 → sequence.nativeUpdates = 0 ∧ result.mixture = sequence.mixture
  evaluation : evaluateOrder gases reactions handle target true (order.drop n)
      (decide (0 < sequence.nativeUpdates)) sequence.mixture =
    match result.pending with
    | none => .ok ⟨result.written, events.filter WorldEvent.isFinished⟩
    | some pending =>
      (evaluateOrder gases reactions handle target true
        (order.drop pending.nextReactionIndex.toNat) false result.written).map
          (Evaluated.after (events.filter WorldEvent.isFinished))
  executed : (events.filterMap WorldEvent.executes ++ remainingOrder order result.pending).Sublist
    (order.drop n)
  native : ∀ event ∈ events, WorldEvent.resumedBy event = none
  length : events.length ≤ 2 * (events.filterMap WorldEvent.executes).length

omit [FloatFormat F] in
theorem countUp_pos {count next : UInt32} {text : String} (h : countUp count text = .ok next) :
    0 < next := by
  unfold countUp at h
  split at h
  · cases h
  · next hne =>
    cases h
    rw [UInt32.lt_iff_toNat_lt, toNat_succ_generation hne]
    exact Nat.succ_pos _

/-- What a native reaction adds to a sequence. -/
theorem recordNative_ok {reaction : ReactionId} {kind : NativeReactionKind}
    {outcome : NativeOutcome F} {threshold : Option F} {cost : F}
    {sequence next : ReactionSequence F}
    (h : recordNative handle target reaction kind outcome threshold cost sequence = .ok next) :
    ∃ profiled, next.events = sequence.events ++
        .reactionFinished handle target reaction kind outcome.values :: profiled ∧
      (profiled = [] ∨ profiled = [.reactionProfiled handle target reaction cost]) ∧
      next.mixture = { sequence.mixture with
        gases := outcome.gases, temperature := outcome.temperature } ∧
      0 < next.nativeUpdates ∧ next.pending = sequence.pending := by
  unfold recordNative at h
  simp only [bind, Except.bind] at h
  rcases hwork : countUp sequence.workItems "reaction work count exceeds u32" with error | work
  · rw [hwork] at h
    cases h
  rcases hnative : countUp sequence.nativeUpdates "native reaction count exceeds u32" with
    error | native
  · rw [hwork, hnative] at h
    cases h
  · rw [hwork, hnative] at h
    cases h
    refine ⟨_, rfl, ?_, rfl, countUp_pos hnative, rfl⟩
    split
    · exact .inr rfl
    · exact .inl rfl

omit [FloatFormat F] in
/-- Where a sequence stops. -/
theorem pauseSequence_ok {reaction : ReactionId} {index : Nat}
    {sequence result : ReactionSequence F}
    (h : pauseSequence handle reaction index sequence = .ok result) :
    index + 1 < 2 ^ 32 ∧ ∃ workItems, result = { sequence with
      workItems, pending := some { reaction, nextReactionIndex := UInt32.ofNat (index + 1) } } := by
  unfold pauseSequence at h
  simp only [bind, Except.bind] at h
  rcases hwork : countUp sequence.workItems "reaction work count exceeds u32" with error | work
  · rw [hwork] at h
    cases h
  rcases hrevision : requireSequenceRevision handle sequence with error | _
  · rw [hwork, hrevision] at h
    cases h
  · rw [hwork, hrevision] at h
    dsimp only at h
    by_cases hindex : 2 ^ 32 ≤ index + 1
    · rw [if_pos hindex] at h
      cases h
    · rw [if_neg hindex] at h
      cases h
      exact ⟨by omega, work, rfl⟩

/-- The next entry of an order with its places. -/
theorem drop_of_drop_zipIdx {α : Type} {order : List α} {n index : Nat} {a : α}
    {rest : List (α × Nat)} (h : order.zipIdx.drop n = (a, index) :: rest) :
    index = n ∧ order.drop n = a :: order.drop (n + 1) ∧ order.zipIdx.drop (n + 1) = rest := by
  have hrest : order.zipIdx.drop (n + 1) = rest := by
    rw [← List.drop_drop, h]
    rfl
  have hhead : order.zipIdx[n]? = some (a, index) := by
    rw [← List.head?_drop, h]
    rfl
  rw [List.getElem?_zipIdx, Option.map_eq_some_iff] at hhead
  obtain ⟨b, hb, heq⟩ := hhead
  obtain ⟨rfl, rfl⟩ := Prod.mk.inj heq
  obtain ⟨hlt, rfl⟩ := List.getElem?_eq_some_iff.1 hb
  exact ⟨by omega, List.drop_eq_getElem_cons hlt, hrest⟩

section Evaluates

variable {order : List ReactionId} {n : Nat} {id : ReactionId}
  {sequence next result : ReactionSequence F} {events : List (WorldEvent F)}

/-- A reaction that does not run. -/
theorem Evaluates.skip (hdrop : order.drop n = id :: order.drop (n + 1))
    (h : Evaluates gases reactions handle target order (n + 1) sequence result events)
    (hskip : ∀ rest, evaluateOrder gases reactions handle target true (id :: rest)
        (decide (0 < sequence.nativeUpdates)) sequence.mixture =
      evaluateOrder gases reactions handle target true rest (decide (0 < sequence.nativeUpdates))
        sequence.mixture) :
    Evaluates gases reactions handle target order n sequence result events where
  emits := h.emits
  mixture := h.mixture
  quiet := h.quiet
  evaluation := by
    rw [hdrop, hskip]
    exact h.evaluation
  executed := by
    rw [hdrop]
    exact h.executed.cons id
  native := h.native
  length := h.length

omit [FloatFormat F] in
theorem map_after (finished more : List (WorldEvent F)) (e : Except WorldError (Evaluated F)) :
    (e.map (Evaluated.after more)).map (Evaluated.after finished) =
      e.map (Evaluated.after (finished ++ more)) := by
  cases e with
  | error error => rfl
  | ok evaluated =>
    show Except.ok _ = Except.ok _
    unfold Evaluated.after
    rw [List.append_assoc]

omit [FloatFormat F] in
theorem map_after_nil (e : Except WorldError (Evaluated F)) : e.map (Evaluated.after []) = e := by
  cases e <;> rfl

/-- A native reaction that runs. -/
theorem Evaluates.record (hdrop : order.drop n = id :: order.drop (n + 1))
    {kind : NativeReactionKind} {outcome : NativeOutcome F} {threshold : Option F} {cost : F}
    (hrecorded : recordNative handle target id kind outcome threshold cost sequence = .ok next)
    (h : Evaluates gases reactions handle target order (n + 1) next result events)
    (hruns : ∀ rest, evaluateOrder gases reactions handle target true (id :: rest)
        (decide (0 < sequence.nativeUpdates)) sequence.mixture =
      (evaluateOrder gases reactions handle target true rest true { sequence.mixture with
        gases := outcome.gases, temperature := outcome.temperature }).map
          (Evaluated.after [.reactionFinished handle target id kind outcome.values])) :
    ∃ events, Evaluates gases reactions handle target order n sequence result events := by
  obtain ⟨profiled, hevents, hprofiled, hmixture, hpos, -⟩ := recordNative_ok hrecorded
  have hquiet : profiled.filter WorldEvent.isFinished = [] ∧
      profiled.filterMap WorldEvent.executes = [] ∧
      (∀ event ∈ profiled, WorldEvent.resumedBy event = none) ∧ profiled.length ≤ 1 := by
    rcases hprofiled with rfl | rfl
    · exact ⟨rfl, rfl, fun _ hmem => (List.not_mem_nil hmem).elim, Nat.zero_le _⟩
    · refine ⟨rfl, rfl, fun event hmem => ?_, Nat.le_refl _⟩
      cases List.mem_singleton.1 hmem
      rfl
  obtain ⟨hfilter, hexecutes, hresumed, hshort⟩ := hquiet
  refine ⟨.reactionFinished handle target id kind outcome.values :: profiled ++ events, ?_, ?_, ?_, ?_,
    ?_, ?_, ?_⟩
  · rw [h.emits, hevents, List.append_assoc]
  · rw [h.mixture, hmixture]
  · intro hnone
    rw [(h.quiet hnone).1] at hpos
    exact absurd hpos (UInt32.lt_irrefl 0)
  · rw [hdrop, hruns, ← hmixture]
    have hevaluation := h.evaluation
    rw [decide_eq_true hpos] at hevaluation
    rw [hevaluation, List.cons_append, List.filter_cons_of_pos rfl, List.filter_append, hfilter,
      List.nil_append]
    cases result.pending with
    | none => rfl
    | some pending => exact map_after _ _ _
  · rw [hdrop, List.cons_append, List.filterMap_cons_some (f := WorldEvent.executes) (b := id) rfl,
      List.filterMap_append, hexecutes, List.nil_append, List.cons_append]
    exact h.executed.cons_cons id
  · intro event hevent
    rw [List.cons_append, List.mem_cons, List.mem_append] at hevent
    rcases hevent with rfl | hevent | hevent
    · rfl
    · exact hresumed event hevent
    · exact h.native event hevent
  · have hlength := h.length
    rw [List.cons_append, List.filterMap_cons_some (f := WorldEvent.executes) (b := id) rfl,
      List.filterMap_append, hexecutes, List.nil_append, List.length_cons, List.length_append,
      List.length_cons]
    omega

/-- A reaction of the client. -/
theorem Evaluates.pause (hdrop : order.drop n = id :: order.drop (n + 1)) (hn : n + 1 < 2 ^ 32)
    (workItems : UInt32)
    (hpauses : ∀ rest changed mixture, changed = decide (0 < sequence.nativeUpdates) →
      mixture = sequence.mixture →
      evaluateOrder gases reactions handle target true (id :: rest) changed mixture =
        if changed then evaluateOrder gases reactions handle target true rest false mixture.committed
        else evaluateOrder gases reactions handle target true rest changed mixture) :
    Evaluates gases reactions handle target order n sequence
      { sequence with
        workItems, pending := some { reaction := id, nextReactionIndex := UInt32.ofNat (n + 1) } }
      [] where
  emits := (List.append_nil _).symm
  mixture := rfl
  quiet hnone := ⟨hnone, rfl⟩
  evaluation := by
    rw [hdrop, hpauses _ _ _ rfl rfl]
    dsimp only
    rw [UInt32.toNat_ofNat_of_lt' hn, List.filter_nil, map_after_nil]
    unfold ReactionSequence.written
    by_cases hchanged : 0 < sequence.nativeUpdates
    · simp [hchanged]
    · simp [hchanged]
  executed := by
    rw [List.filterMap_nil, List.nil_append]
    unfold remainingOrder
    dsimp only
    rw [UInt32.toNat_ofNat_of_lt' hn, hdrop]
  native _ hmem := (List.not_mem_nil hmem).elim
  length := Nat.zero_le _

end Evaluates

theorem runReactions_spec (order : List ReactionId) (threshold : Option F) (clock : Nat → F) :
    ∀ (entries : List (ReactionId × Nat)) (n : Nat) (sequence result : ReactionSequence F),
      order.zipIdx.drop n = entries → sequence.pending = none →
      runReactions gases reactions handle target threshold clock entries sequence = .ok result →
      ∃ events, Evaluates gases reactions handle target order n sequence result events := by
  intro entries
  induction entries with
  | nil =>
    intro n sequence result hentries hpending h
    have hdrop : order.drop n = [] := by
      have hlength := congrArg List.length hentries
      rw [List.length_drop, List.length_zipIdx, List.length_nil] at hlength
      exact List.drop_eq_nil_of_le (by omega)
    have hresult : result = sequence := by
      unfold runReactions at h
      simp only [bind, Except.bind] at h
      rcases hrevision : requireSequenceRevision handle sequence with error | _
      · rw [hrevision] at h
        cases h
      · rw [hrevision] at h
        cases h
        rfl
    subst hresult
    refine ⟨[], (List.append_nil _).symm, rfl, fun hnone => ⟨hnone, rfl⟩, ?_, ?_, fun _ hmem => (List.not_mem_nil hmem).elim,
      Nat.zero_le _⟩
    · rw [hdrop, hpending]
      unfold evaluateOrder ReactionSequence.written
      simp only [decide_eq_true_eq]
      rfl
    · rw [hpending]
      exact List.nil_sublist _
  | cons entry rest ih =>
    intro n sequence result hentries hpending h
    obtain ⟨id, index⟩ := entry
    obtain ⟨rfl, hdrop, hrest⟩ := drop_of_drop_zipIdx hentries
    have hskip : runReactions gases reactions handle target threshold clock rest sequence =
        .ok result → (∀ rest, evaluateOrder gases reactions handle target true (id :: rest)
          (decide (0 < sequence.nativeUpdates)) sequence.mixture =
        evaluateOrder gases reactions handle target true rest (decide (0 < sequence.nativeUpdates))
          sequence.mixture) →
        ∃ events, Evaluates gases reactions handle target order index sequence result events := by
      intro h hskip
      obtain ⟨events, hevaluates⟩ := ih (index + 1) sequence result hrest hpending h
      exact ⟨events, hevaluates.skip hdrop hskip⟩
    unfold runReactions at h
    dsimp only at h
    by_cases hreactable : (!reactions.isReactable id sequence.mixture.temperature
        sequence.mixture.gases gases) = true
    · rw [if_pos hreactable] at h
      exact hskip h fun rest => by rw [evaluateOrder, if_pos hreactable]
    rw [if_neg hreactable] at h
    rcases hreaction : reactions.byId id with _ | reaction
    · rw [hreaction] at h
      exact hskip h fun rest => by
        rw [evaluateOrder, if_neg hreactable, hreaction]
        rfl
    rw [hreaction] at h
    dsimp only at h
    rcases hexecution : reaction.execution with kind | _
    · rw [hexecution] at h
      simp only [bind, Except.bind] at h
      rcases hnative : executeNative kind sequence.mixture.gases sequence.mixture.temperature
          sequence.mixture.volume sequence.mixture.minimumHeatCapacity gases with
        error | (_ | outcome)
      · rw [hnative] at h
        cases h
      · rw [hnative] at h
        exact hskip h fun rest => by
          rw [evaluateOrder, if_neg hreactable, hreaction, Option.map_some, hexecution]
          dsimp only
          rw [hnative]
      · rw [hnative] at h
        dsimp only [Except.mapError] at h
        rcases hrecorded : recordNative handle target id kind outcome threshold (clock index)
            sequence with error | next
        · rw [hrecorded] at h
          cases h
        · rw [hrecorded] at h
          dsimp only at h
          have hnext := (recordNative_ok hrecorded).choose_spec.2.2.2.2
          obtain ⟨events, hevaluates⟩ := ih (index + 1) next result hrest (hnext.trans hpending) h
          refine hevaluates.record hdrop hrecorded fun rest => ?_
          rw [evaluateOrder, if_neg hreactable, hreaction, Option.map_some, hexecution]
          dsimp only
          rw [hnative]
    · rw [hexecution] at h
      dsimp only at h
      obtain ⟨hindex, workItems, rfl⟩ := pauseSequence_ok h
      refine ⟨[], Evaluates.pause hdrop hindex workItems fun rest changed mixture hchanged hmixture => ?_⟩
      subst hmixture
      rw [evaluateOrder, if_neg hreactable, hreaction, Option.map_some, hexecution]
      rfl

/-! ## One call -/

variable {w w' v : DogmosWorld F}

/-- The sequence that a call evaluates, on a mutable mixture. -/
theorem evaluateReactionSequence_ok {start flags : UInt32} {threshold : Option F} {clock : Nat → F}
    {sequence : ReactionSequence F}
    (h : w.evaluateReactionSequence target handle start flags threshold clock = .ok sequence) :
    ∃ gases reactions record, w.gasRegistry = some gases ∧ w.reactionRegistry = some reactions ∧
      w.requireHandle handle = .ok record ∧
      (record.immutable = true ∧ sequence.events = [] ∧ sequence.pending = none ∧
          sequence.nativeUpdates = 0 ∧ sequence.mixture = record ∨
        record.immutable = false ∧ ∃ first : ReactionSequence F, first.mixture = record ∧
          first.events = [] ∧ first.nativeUpdates = 0 ∧
          Evaluates gases reactions handle target reactions.priorityOrder start.toNat first sequence
            sequence.events) := by
  unfold evaluateReactionSequence requireGases requireReactions at h
  rcases hgases : w.gasRegistry with _ | gases
  · rw [hgases] at h
    cases h
  rcases hreactions : w.reactionRegistry with _ | reactions
  · rw [hgases, hreactions] at h
    cases h
  rcases hrecord : w.requireHandle handle with error | record
  · rw [hgases, hreactions, hrecord] at h
    cases h
  rw [hgases, hreactions, hrecord] at h
  simp only [bind, Except.bind, pure, Except.pure] at h
  refine ⟨gases, reactions, record, rfl, rfl, rfl, ?_⟩
  by_cases himmutable : record.immutable
  · rw [if_pos himmutable] at h
    cases h
    exact .inl ⟨himmutable, rfl, rfl, rfl, rfl⟩
  · rw [if_neg himmutable] at h
    obtain ⟨events, hevaluates⟩ := runReactions_spec _ _ _ _ _ _ _ rfl rfl h
    have hevents : sequence.events = events := hevaluates.emits
    rw [hevents]
    exact .inr ⟨by simpa using himmutable, { mixture := record, events := [], pending := none
                                             flags, workItems := 0, nativeUpdates := 0 },
      rfl, rfl, rfl, hevaluates⟩

/-- What a call leaves: the record, the events, and the continuation when it stopped. -/
structure Called (w w' : DogmosWorld F) (handle : MixtureHandle) (target : GameplayHandle)
    (sequence : ReactionSequence F) (tail : List (WorldEvent F)) : Prop where
  record : w'.requireHandle handle = .ok sequence.written
  emits : w'.events = w.events ++ (sequence.events ++ tail)
  tail : match sequence.pending with
    | none => tail = []
    | some pending => ∃ token continuation, tail = [dmReactionEvent continuation pending token] ∧
      w'.requireContinuation token = .ok continuation ∧ continuation.mixture = handle ∧
      continuation.target = target ∧ continuation.nextReactionIndex = pending.nextReactionIndex

omit [FloatFormat F] in
theorem events_writeMixture (w : DogmosWorld F) (slot : Nat) (f : MixtureRecord F → MixtureRecord F) :
    (w.writeMixture slot f).events = w.events := by
  unfold writeMixture
  split <;> rfl

/-- The last part of a call: the record of the sequence is written and its events are added. -/
def finishCall {β : Type} (handle : MixtureHandle) (sequence : ReactionSequence F)
    (tail : List (WorldEvent F)) (b : β) : WorldM F β := do
  writeSequence handle sequence
  modify fun w => w.pushEvents (sequence.events ++ tail)
  pure b

theorem run_finishCall {β : Type} {sequence : ReactionSequence F} {record : MixtureRecord F}
    (hrecord : v.requireHandle handle = .ok record)
    (hrevision : sequence.mixture.revision = record.revision)
    (hsame : sequence.nativeUpdates = 0 → sequence.mixture = record)
    (tail : List (WorldEvent F)) (b : β) :
    ∃ w', run (finishCall handle sequence tail b) v = (.ok b, w') ∧
      w'.requireHandle handle = .ok sequence.written ∧
      w'.events = v.events ++ (sequence.events ++ tail) ∧ w'.continuations = v.continuations := by
  unfold finishCall writeSequence requireHandleMut
  obtain ⟨hgeneration, hat⟩ := requireHandle_eq_ok.1 hrecord
  by_cases hupdates : 0 < sequence.nativeUpdates
  · rw [if_pos hupdates, run_bind, run_bind, run_bind, run_check, hrecord]
    refine ⟨_, rfl, ?_, ?_, ?_⟩
    · show requireHandle (DogmosWorld.writeMixture (DogmosWorld.writeMixture v handle.slot.toNat
        fun record => record) handle.slot.toNat _) handle = _
      rw [requireHandle_eq_ok]
      refine ⟨?_, ?_⟩
      · rw [mixtureGeneration_writeMixture, mixtureGeneration_writeMixture, hgeneration]
      · rw [mixtureAt_writeMixture, if_pos rfl, mixtureAt_writeMixture, if_pos rfl, hat]
        unfold ReactionSequence.written MixtureRecord.committed
        rw [if_pos hupdates, hrevision]
        rfl
    · show (DogmosWorld.writeMixture (DogmosWorld.writeMixture v handle.slot.toNat
        fun record => record) handle.slot.toNat _).events ++ _ = _
      rw [events_writeMixture, events_writeMixture]
    · show (DogmosWorld.writeMixture (DogmosWorld.writeMixture v handle.slot.toNat
        fun record => record) handle.slot.toNat _).continuations = _
      rw [(SameContinuations.writeMixture _ _ _).continuations,
        (SameContinuations.writeMixture _ _ _).continuations]
  · rw [if_neg hupdates]
    have hnone : sequence.nativeUpdates = 0 := by
      rw [UInt32.lt_iff_toNat_lt] at hupdates
      exact UInt32.toNat_inj.1 (Nat.eq_zero_of_not_pos hupdates)
    refine ⟨_, rfl, ?_, rfl, rfl⟩
    show requireHandle v handle = _
    rw [hrecord]
    unfold ReactionSequence.written
    rw [if_neg hupdates, hsame hnone]

omit [FloatFormat F] in
/-- A continuation that was allocated is found under its token, and nothing else changed. -/
theorem allocateContinuation_ok (h : PoolFrom w w) {continuation : ReactionContinuation F}
    {token : ReactionContinuationToken}
    (hrun : run (allocateContinuation continuation) w = (.ok token, v)) :
    v.requireContinuation token = .ok continuation ∧ v.events = w.events ∧
      ∀ mixture, v.requireHandle mixture = w.requireHandle mixture := by
  rcases hfree : w.freeContinuations.getLast? with _ | slot
  · rw [run_allocateContinuation_full w continuation hfree] at hrun
    split at hrun
    · cases hrun
    · next hroom =>
      cases hrun
      rw [not_or, Nat.not_le] at hroom
      refine ⟨requireContinuation_of_getElem? ?_, rfl, fun _ => rfl⟩
      dsimp only
      rw [UInt32.toNat_ofNat_of_lt' hroom.2]
      exact List.getElem?_concat_length
  · rw [run_allocateContinuation_free w continuation hfree] at hrun
    split at hrun
    · cases hrun
    · cases hrun
      refine ⟨?_, rfl, fun _ => rfl⟩
      have hlast : slot.toNat ∈ w.pool.free := by
        show slot.toNat ∈ w.freeContinuations.map UInt32.toNat
        exact List.mem_map_of_mem (List.mem_of_getLast? hfree)
      obtain ⟨generation, hslot⟩ := h.sound.vacant slot.toNat hlast
      rw [pool_slots, Option.map_eq_some_iff] at hslot
      obtain ⟨entry, hentry, -⟩ := hslot
      have hlt := (List.getElem?_eq_some_iff.1 hentry).1
      exact requireContinuation_of_getElem? (List.getElem?_set_self hlt)

omit [FloatFormat F] in
/-- What accepted events fit into. -/
theorem eventCount_le {sequence : ReactionSequence F} {capacity : Nat} {u : Unit}
    (h : w.requireEventCapacity sequence.eventCount capacity = .ok u) :
    w.events.length + sequence.eventCount ≤ capacity := by
  unfold requireEventCapacity at h
  split at h
  · cases h
  · omega

/-- A sequence starts from the record, and leaves it alone when no native reaction runs. -/
theorem record_of_sequence {start flags : UInt32} {threshold : Option F} {clock : Nat → F}
    {sequence : ReactionSequence F}
    (h : w.evaluateReactionSequence target handle start flags threshold clock = .ok sequence) :
    ∃ record, w.requireHandle handle = .ok record ∧
      sequence.mixture.revision = record.revision ∧
      (sequence.nativeUpdates = 0 → sequence.mixture = record) := by
  obtain ⟨gases, reactions, record, -, -, hrecord, hcase⟩ := evaluateReactionSequence_ok h
  refine ⟨record, hrecord, ?_⟩
  rcases hcase with ⟨-, -, -, -, hmixture⟩ | ⟨-, first, hfirst, -, -, hevaluates⟩
  · exact ⟨congrArg _ hmixture, fun _ => hmixture⟩
  · refine ⟨?_, fun hnone => (hevaluates.quiet hnone).2.trans hfirst⟩
    rw [hevaluates.mixture, hfirst]

/-- What a call leaves, once the continuations are settled. -/
theorem called_of_finishCall {start flags : UInt32} {threshold : Option F} {clock : Nat → F}
    {sequence : ReactionSequence F} {β : Type} {b b' : β} {tail : List (WorldEvent F)}
    (hsequence : w.evaluateReactionSequence target handle start flags threshold clock = .ok sequence)
    (hevents : v.events = w.events) (hrecords : v.requireHandle handle = w.requireHandle handle)
    (hrun : run (finishCall handle sequence tail b) v = (.ok b', w'))
    (htail : match sequence.pending with
      | none => tail = []
      | some pending => ∃ token continuation, tail = [dmReactionEvent continuation pending token] ∧
        v.requireContinuation token = .ok continuation ∧ continuation.mixture = handle ∧
        continuation.target = target ∧
        continuation.nextReactionIndex = pending.nextReactionIndex) :
    Called w w' handle target sequence tail := by
  obtain ⟨record, hrecord, hrevision, hquiet⟩ := record_of_sequence hsequence
  obtain ⟨v', hfinish, hwritten, hemits, hcontinuations⟩ :=
    run_finishCall (hrecords.trans hrecord) hrevision hquiet tail b
  rw [hfinish] at hrun
  cases hrun
  have hrequire : ∀ token, w'.requireContinuation token = v.requireContinuation token := by
    intro token
    unfold requireContinuation
    rw [hcontinuations]
  refine ⟨hwritten, by rw [hemits, hevents], ?_⟩
  rcases hpending : sequence.pending with _ | pending
  · rw [hpending] at htail
    exact htail
  · rw [hpending] at htail
    obtain ⟨token, continuation, heq, hfound, hrest⟩ := htail
    exact ⟨token, continuation, heq, (hrequire token).trans hfound, hrest⟩

variable [FloatFormat D] [FloatCast F D]

/-- An accepted operation ran to its end. -/
theorem run_of_accepted {α : Type} {m : WorldM F α} {op : Op F D} (hop : exec op = discard m)
    (h : Accepted w op) : ∃ a, run m w = (.ok a, step w op) := by
  unfold Accepted result at h
  unfold step final
  rw [hop] at h ⊢
  unfold discard at h ⊢
  rw [run_bind] at h ⊢
  rcases hrun : run m w with ⟨error | a, v⟩
  · rw [hrun] at h
    cases h
  · exact ⟨a, rfl⟩

/-- **An accepted request** to react. -/
theorem called_reactMixture (hpool : PoolFrom w w) {threshold : Option F} {eventLimit : UInt32}
    {clock : Nat → F}
    (h : Accepted w (.reactMixture handle target threshold eventLimit clock : Op F D)) :
    ∃ sequence tail,
      w.evaluateReactionSequence target handle 0 0 threshold clock = .ok sequence ∧
      w.events.length + sequence.eventCount ≤ (min w.maxEvents eventLimit).toNat ∧
      Called w (step w (.reactMixture handle target threshold eventLimit clock : Op F D)) handle
        target sequence tail := by
  obtain ⟨progress, hrun⟩ := run_of_accepted (D := D) rfl h
  generalize step w (.reactMixture handle target threshold eventLimit clock : Op F D) = w' at hrun ⊢
  unfold reactMixture at hrun
  rw [run_bind, run_check] at hrun
  rcases hthreshold : validateReactionProfileThreshold threshold with error | _
  · rw [hthreshold] at hrun
    cases hrun
  rw [hthreshold] at hrun
  dsimp only at hrun
  rw [run_bind, run_check] at hrun
  rcases hsequence : w.evaluateReactionSequence target handle 0 0 threshold clock with
    error | sequence
  · rw [hsequence] at hrun
    cases hrun
  rw [hsequence] at hrun
  dsimp only at hrun
  rw [run_bind, run_check] at hrun
  rcases hcapacity : w.requireEventCapacity sequence.eventCount
    (min w.maxEvents eventLimit).toNat with error | _
  · rw [hcapacity] at hrun
    cases hrun
  rw [hcapacity] at hrun
  dsimp only at hrun
  rcases hpending : sequence.pending with _ | pending
  · simp only [hpending] at hrun
    refine ⟨sequence, [], rfl, eventCount_le hcapacity,
      called_of_finishCall hsequence rfl rfl hrun ?_⟩
    rw [hpending]
  · simp only [hpending] at hrun
    rw [run_bind] at hrun
    rcases hallocate : run (allocateContinuation (F := F)
      { turf := none, mixture := handle, target, nextReactionIndex := pending.nextReactionIndex
        reactionProfileThresholdMs := threshold }) w with ⟨error | token, v⟩
    · rw [hallocate] at hrun
      cases hrun
    · rw [hallocate] at hrun
      obtain ⟨hfound, hevents, hrecords⟩ := allocateContinuation_ok hpool hallocate
      refine ⟨sequence, _, rfl, eventCount_le hcapacity,
        called_of_finishCall hsequence hevents (hrecords handle) hrun ?_⟩
      rw [hpending]
      exact ⟨token, _, rfl, hfound, rfl, rfl, rfl⟩

omit [FloatFormat F] in
/-- A continuation that moves on is found under its next token, and nothing else changed. -/
theorem rotateContinuation_ok {token token' : ReactionContinuationToken}
    {continuation : ReactionContinuation F}
    (hrun : run (rotateContinuation token continuation) w = (.ok token', v)) :
    v.requireContinuation token' = .ok continuation ∧ v.events = w.events ∧
      ∀ mixture, v.requireHandle mixture = w.requireHandle mixture := by
  rw [run_rotateContinuation] at hrun
  rcases hrequire : w.requireContinuation token with error | found
  · rw [hrequire] at hrun
    cases hrun
  rw [hrequire] at hrun
  dsimp only at hrun
  by_cases hlast : token.generation = maxRevision
  · rw [if_pos hlast] at hrun
    cases hrun
  rw [if_neg hlast] at hrun
  cases hrun
  refine ⟨?_, rfl, fun _ => rfl⟩
  rw [requireContinuation_eq_ok] at hrequire ⊢
  unfold SlotPool.Holds at hrequire ⊢
  rw [pool_setContinuation]
  dsimp only
  rw [SlotPool.getElem?_set_of_some hrequire, if_pos rfl]

omit [FloatFormat F] in
/-- A continuation that is completed leaves everything but the continuations. -/
theorem completeContinuation_ok {token : ReactionContinuationToken} {u : Unit}
    (hrun : run (completeContinuation token) w = (.ok u, v)) :
    v.events = w.events ∧ ∀ mixture, v.requireHandle mixture = w.requireHandle mixture := by
  rw [run_completeContinuation] at hrun
  rcases hrequire : w.requireContinuation token with error | found
  · rw [hrequire] at hrun
    cases hrun
  · rw [hrequire] at hrun
    cases hrun
    exact ⟨rfl, fun _ => rfl⟩

/-- **An accepted call** that resumes a sequence with result 0. -/
theorem called_resumeReactionInner {token : ReactionContinuationToken} {eventLimit : UInt32}
    {clock : Nat → F} {progress : ReactionProgress × UInt32}
    (hrun : run (resumeReactionInner token 0 eventLimit clock) w = (.ok progress, w')) :
    ∃ continuation sequence tail, w.requireContinuation token = .ok continuation ∧
      w.evaluateReactionSequence continuation.target continuation.mixture
        continuation.nextReactionIndex 0 continuation.reactionProfileThresholdMs clock =
          .ok sequence ∧
      w.events.length + sequence.eventCount ≤ (min w.maxEvents eventLimit).toNat ∧
      Called w w' continuation.mixture continuation.target sequence tail := by
  unfold resumeReactionInner at hrun
  rw [if_neg (by decide), run_bind, run_check] at hrun
  rcases hresumable : w.requireResumable token with error | continuation
  · rw [hresumable] at hrun
    cases hrun
  rw [hresumable] at hrun
  dsimp only at hrun
  rw [if_neg (by decide), run_bind, run_check] at hrun
  rcases hsequence : w.evaluateReactionSequence continuation.target continuation.mixture
    continuation.nextReactionIndex 0 continuation.reactionProfileThresholdMs clock with
    error | sequence
  · rw [hsequence] at hrun
    cases hrun
  rw [hsequence] at hrun
  dsimp only at hrun
  rw [run_bind, run_check] at hrun
  rcases hcapacity : w.requireEventCapacity sequence.eventCount
    (min w.maxEvents eventLimit).toNat with error | _
  · rw [hcapacity] at hrun
    cases hrun
  rw [hcapacity] at hrun
  dsimp only at hrun
  refine ⟨continuation, sequence, ?_⟩
  rcases hpending : sequence.pending with _ | pending
  · simp only [hpending] at hrun
    rw [run_bind] at hrun
    rcases hcomplete : run (completeContinuation token) w with ⟨error | u, v⟩
    · rw [hcomplete] at hrun
      cases hrun
    · rw [hcomplete] at hrun
      obtain ⟨hevents, hrecords⟩ := completeContinuation_ok hcomplete
      refine ⟨[], requireContinuation_of_requireResumable hresumable, hsequence,
        eventCount_le hcapacity,
        called_of_finishCall hsequence hevents (hrecords continuation.mixture) hrun ?_⟩
      rw [hpending]
  · simp only [hpending] at hrun
    rw [run_bind] at hrun
    rcases hrotate : run (rotateContinuation token
      { continuation with nextReactionIndex := pending.nextReactionIndex }) w with
      ⟨error | token', v⟩
    · rw [hrotate] at hrun
      cases hrun
    · rw [hrotate] at hrun
      obtain ⟨hfound, hevents, hrecords⟩ := rotateContinuation_ok hrotate
      refine ⟨_, requireContinuation_of_requireResumable hresumable, hsequence,
        eventCount_le hcapacity,
        called_of_finishCall hsequence hevents (hrecords continuation.mixture) hrun ?_⟩
      rw [hpending]
      exact ⟨token', _, rfl, hfound, rfl, rfl, rfl⟩

theorem toNat_min_le (a b : UInt32) : (min a b).toNat ≤ a.toNat := by
  by_cases hle : a ≤ b
  · rw [show min a b = a from if_pos hle]
  · rw [show min a b = b from if_neg hle]
    exact UInt32.le_iff_toNat_le.1 (Or.resolve_left (UInt32.le_total a b) hle)

/-- **An accepted operation** that resumes a sequence with result 0. -/
theorem called_of_resumes {token : ReactionContinuationToken} {op : Op F D}
    (hop : op.Resumes token) (h : Accepted w op) :
    ∃ continuation sequence tail threshold, ∃ clock : Nat → F,
      w.requireContinuation token = .ok continuation ∧
      w.evaluateReactionSequence continuation.target continuation.mixture
        continuation.nextReactionIndex 0 threshold clock = .ok sequence ∧
      w.events.length + sequence.eventCount ≤ w.maxEvents.toNat ∧
      Called w (step w op) continuation.mixture continuation.target sequence tail := by
  have hinner : ∃ (eventLimit : UInt32) (clock : Nat → F) (progress : ReactionProgress × UInt32),
      run (resumeReactionInner token 0 eventLimit clock) w = (.ok progress, step w op) := by
    cases hop with
    | request eventLimit clock =>
      obtain ⟨progress, hrun⟩ := run_of_accepted (D := D) rfl h
      unfold resumeReactionWithResult at hrun
      rw [run_bind] at hrun
      rcases hinner : run (resumeReactionInner token 0 eventLimit clock) w with ⟨error | inner, v⟩
      · rw [hinner] at hrun
        cases hrun
      · rw [hinner] at hrun
        cases hrun
        exact ⟨eventLimit, clock, inner, hinner⟩
    | command clock =>
      obtain ⟨progress, hrun⟩ := run_of_accepted (D := D) rfl h
      unfold applyCommand resumeReactionWithEventLimit at hrun
      dsimp only at hrun
      rw [run_bind, run_get] at hrun
      dsimp only at hrun
      rw [run_bind, run_bind] at hrun
      rcases hinner : run (resumeReactionInner token 0 w.maxEvents clock) w with ⟨error | inner, v⟩
      · rw [hinner] at hrun
        cases hrun
      · rw [hinner] at hrun
        cases hrun
        exact ⟨w.maxEvents, clock, inner, hinner⟩
  obtain ⟨eventLimit, clock, progress, hrun⟩ := hinner
  obtain ⟨continuation, sequence, tail, hfound, hsequence, hbound, hcalled⟩ :=
    called_resumeReactionInner hrun
  refine ⟨continuation, sequence, tail, _, clock, hfound, hsequence, ?_, hcalled⟩
  exact Nat.le_trans hbound (toNat_min_le _ _)

/-! ## Where a sequence stands -/

/-- Where the calls of a sequence stand, behind some events: the evaluation is through, or it goes
on under a token. -/
inductive Stands (w : DogmosWorld F) (gases : GasMetadataRegistry F)
    (reactions : ReactionMetadataRegistry F) (handle : MixtureHandle) (target : GameplayHandle)
    (evaluation : Except WorldError (Evaluated F)) (order : List ReactionId)
    (events : List (WorldEvent F)) : Option ReactionContinuationToken → Prop
  | through (final : MixtureRecord F) (record : w.requireHandle handle = .ok final)
      (evaluated : evaluation = .ok ⟨final, events.filter WorldEvent.isFinished⟩)
      (executed : (events.filterMap WorldEvent.executes).Sublist order) :
      Stands w gases reactions handle target evaluation order events none
  | waits (token : ReactionContinuationToken) (continuation : ReactionContinuation F)
      (paused : MixtureRecord F) (found : w.requireContinuation token = .ok continuation)
      (mixture : continuation.mixture = handle) (holder : continuation.target = target)
      (record : w.requireHandle handle = .ok paused) (isMutable : paused.immutable = false)
      (evaluated : evaluation = (evaluateOrder gases reactions handle target true
        (reactions.priorityOrder.drop continuation.nextReactionIndex.toNat) false paused).map
          (Evaluated.after (events.filter WorldEvent.isFinished)))
      (executed : (events.filterMap WorldEvent.executes ++
        reactions.priorityOrder.drop continuation.nextReactionIndex.toNat).Sublist order) :
      Stands w gases reactions handle target evaluation order events (some token)

/-- The token under which the client resumes what some events leave. -/
def waitingToken (events : List (WorldEvent F)) : Option ReactionContinuationToken :=
  events.getLast?.bind WorldEvent.resumedBy

section Stands

variable {sequence : ReactionSequence F} {tail : List (WorldEvent F)}
  {evaluation : Except WorldError (Evaluated F)} {order : List ReactionId}
  {events more : List (WorldEvent F)} {waiting : Option ReactionContinuationToken}

omit [FloatFormat D] [FloatCast F D] in
/-- Where a call stands that evaluates the order from `n` on. -/
theorem stands_of_called (hcalled : Called w w' handle target sequence tail)
    {first : ReactionSequence F} {n : Nat} (hmutable : first.mixture.immutable = false)
    (hupdates : first.nativeUpdates = 0)
    (h : Evaluates gases reactions handle target reactions.priorityOrder n first sequence
      sequence.events) :
    Stands w' gases reactions handle target
      (evaluateOrder gases reactions handle target true (reactions.priorityOrder.drop n) false
        first.mixture)
      (reactions.priorityOrder.drop n) (sequence.events ++ tail)
      (waitingToken (sequence.events ++ tail)) := by
  have hevaluation := h.evaluation
  have hexecuted := h.executed
  have htail := hcalled.tail
  have hwritten : sequence.written.immutable = false := by
    unfold ReactionSequence.written MixtureRecord.committed
    rw [h.mixture]
    split <;> exact hmutable
  rw [hupdates, show decide (0 < (0 : UInt32)) = false by decide] at hevaluation
  rcases hpending : sequence.pending with _ | pending
  · rw [hpending] at hevaluation hexecuted htail
    subst htail
    have hwaiting : waitingToken (sequence.events ++ []) = none := by
      unfold waitingToken
      rw [List.append_nil]
      rcases hlast : sequence.events.getLast? with _ | event
      · rfl
      · exact h.native event (List.mem_of_getLast? hlast)
    rw [hwaiting]
    rw [List.append_nil]
    refine .through sequence.written hcalled.record hevaluation ?_
    unfold remainingOrder at hexecuted
    rwa [List.append_nil] at hexecuted
  · rw [hpending] at hevaluation hexecuted htail
    obtain ⟨token, continuation, rfl, hfound, hmixture, hholder, hindex⟩ := htail
    have hwaiting : waitingToken (sequence.events ++ [dmReactionEvent continuation pending token]) =
        some token := by
      unfold waitingToken
      rw [List.getLast?_concat]
      rfl
    rw [hwaiting]
    refine .waits token continuation sequence.written hfound hmixture hholder hcalled.record hwritten
      ?_ ?_
    · rw [List.filter_append, List.filter_cons_of_neg (Bool.false_ne_true ·), List.filter_nil, List.append_nil,
        hindex]
      exact hevaluation
    · rw [List.filterMap_append, List.append_assoc, hindex]
      exact hexecuted

omit [FloatFormat D] [FloatCast F D] in
/-- A call goes on where the calls before it stopped. -/
theorem Stands.resume {token : ReactionContinuationToken}
    (h : Stands w gases reactions handle target evaluation order events (some token))
    (hnext : ∀ continuation paused, w.requireContinuation token = .ok continuation →
      continuation.mixture = handle → continuation.target = target →
      w.requireHandle handle = .ok paused → paused.immutable = false →
      Stands w' gases reactions handle target
        (evaluateOrder gases reactions handle target true
          (reactions.priorityOrder.drop continuation.nextReactionIndex.toNat) false paused)
        (reactions.priorityOrder.drop continuation.nextReactionIndex.toNat) more waiting) :
    Stands w' gases reactions handle target evaluation order (events ++ more) waiting := by
  cases h with
  | waits _ continuation paused hfound hmixture hholder hrecord hmutable hevaluated hexecuted =>
    cases hnext continuation paused hfound hmixture hholder hrecord hmutable with
    | through final hrecord' hevaluated' hexecuted' =>
      refine .through final hrecord' ?_ ?_
      · rw [hevaluated, hevaluated', List.filter_append]
        rfl
      · rw [List.filterMap_append]
        exact (hexecuted'.append_left _).trans hexecuted
    | waits token' continuation' paused' hfound' hmixture' hholder' hrecord' hmutable' hevaluated'
        hexecuted' =>
      refine .waits token' continuation' paused' hfound' hmixture' hholder' hrecord' hmutable' ?_ ?_
      · rw [hevaluated, hevaluated', map_after, List.filter_append]
      · rw [List.filterMap_append, List.append_assoc]
        exact (hexecuted'.append_left _).trans hexecuted

end Stands

/-! ## The calls of a sequence -/

/-- The events that an operation adds to those of the world. -/
def emitted (w w' : DogmosWorld F) : List (WorldEvent F) := w'.events.drop w.events.length

/-- **The calls of one sequence**, with the events of each: the request to react, and a call that
resumes it for each pause.  Between two calls other operations run, that leave the mixture. -/
inductive SequenceRun (handle : MixtureHandle) (target : GameplayHandle) (w : DogmosWorld F) :
    DogmosWorld F → List (List (WorldEvent F)) → Prop
  | react {threshold : Option F} {eventLimit : UInt32} {clock : Nat → F}
      (accepted : Accepted w (.reactMixture handle target threshold eventLimit clock : Op F D)) :
      SequenceRun handle target w
        (step w (.reactMixture handle target threshold eventLimit clock : Op F D))
        [emitted w (step w (.reactMixture handle target threshold eventLimit clock : Op F D))]
  | resume {v : DogmosWorld F} {calls : List (List (WorldEvent F))}
      {token : ReactionContinuationToken} {op : Op F D} (before : SequenceRun handle target w v calls)
      (waits : waitingToken (calls.getLastD []) = some token) (between : List (Op F D))
      (unchanged : (System.run step v between).requireHandle handle = v.requireHandle handle)
      (resumes : op.Resumes token) (accepted : Accepted (System.run step v between) op) :
      SequenceRun handle target w (step (System.run step v between) op)
        (calls ++ [emitted (System.run step v between) (step (System.run step v between) op)])

omit [FloatFormat F] [FloatFormat D] [FloatCast F D] in
theorem populated_of_requireHandle {record : MixtureRecord F}
    (h : w.requireHandle handle = .ok record) : w.Populated := by
  intro hnone
  obtain ⟨-, hat⟩ := requireHandle_eq_ok.1 h
  unfold mixtureAt at hat
  rw [hnone] at hat
  cases hat

omit [FloatFormat D] [FloatCast F D] in
theorem emitted_of_called {sequence : ReactionSequence F} {tail : List (WorldEvent F)}
    (h : Called w w' handle target sequence tail) : emitted w w' = sequence.events ++ tail := by
  unfold emitted
  rw [h.emits, List.drop_append_of_le_length (Nat.le_refl _), List.drop_length, List.nil_append]

omit [FloatFormat D] [FloatCast F D] in
/-- **The events of one call** fit the bound. -/
theorem length_le_reactionEventBound (hformed : reactions.WellFormed)
    (hreactions : v.reactionRegistry = some reactions) {first sequence : ReactionSequence F} {n : Nat}
    {tail : List (WorldEvent F)}
    (h : Evaluates gases reactions handle target reactions.priorityOrder n first sequence
      sequence.events)
    (hcalled : Called w w' handle target sequence tail) (hcount : sequence.eventCount < 2 ^ 32) :
    (sequence.events ++ tail).length ≤ v.reactionEventBound.toNat := by
  have hexecuted := h.executed.length_le
  have hlength := h.length
  have htail := hcalled.tail
  rw [List.length_append, List.length_drop, hformed.length] at hexecuted
  unfold ReactionSequence.eventCount at hcount
  have hadded : tail.length = if sequence.pending.isSome then 1 else 0 := by
    rcases hpending : sequence.pending with _ | pending
    · rw [hpending] at htail
      rw [htail]
      rfl
    · rw [hpending] at htail
      obtain ⟨token, continuation, rfl, -⟩ := htail
      rfl
  have hremaining : (if sequence.pending.isSome then 1 else 0) ≤
      (remainingOrder reactions.priorityOrder sequence.pending).length := by
    rcases sequence.pending with _ | pending
    · exact Nat.zero_le _
    · unfold remainingOrder
      rw [List.length_cons]
      exact Nat.succ_le_succ (Nat.zero_le _)
  unfold reactionEventBound ReactionMetadataRegistry.len
  rw [hreactions]
  dsimp only
  have hclamp : ∀ k : Nat, (UInt32.ofNatClamp k).toNat = min k (2 ^ 32 - 1) := by
    intro k
    unfold UInt32.ofNatClamp
    split
    · next hsmall =>
      rw [UInt32.toNat_ofNatLT]
      have hsize : UInt32.size = 2 ^ 32 := rfl
      omega
    · next hlarge =>
      have hsize : UInt32.size = 2 ^ 32 := rfl
      show 2 ^ 32 - 1 = _
      omega
  rw [hclamp, hclamp, List.length_append, hadded]
  omega

omit [FloatFormat D] [FloatCast F D] in
/-- Where an accepted call stands, on a mutable mixture. -/
theorem stands_of_sequence (hfurnished : v.Furnished) (hregistries : w.registries = v.registries)
    {start flags : UInt32} {threshold : Option F} {clock : Nat → F} {sequence : ReactionSequence F}
    {tail : List (WorldEvent F)} {capacity : UInt32}
    (hsequence : w.evaluateReactionSequence target handle start flags threshold clock = .ok sequence)
    (hcount : w.events.length + sequence.eventCount ≤ capacity.toNat)
    (hcalled : Called w w' handle target sequence tail) :
    ∃ gases reactions record, v.gasRegistry = some gases ∧ v.reactionRegistry = some reactions ∧
      w.requireHandle handle = .ok record ∧
      (emitted w w').length ≤ v.reactionEventBound.toNat ∧
      (record.immutable = true ∧ emitted w w' = [] ∧ w'.requireHandle handle = .ok record ∨
        record.immutable = false ∧ Stands w' gases reactions handle target
          (evaluateOrder gases reactions handle target true
            (reactions.priorityOrder.drop start.toNat) false record)
          (reactions.priorityOrder.drop start.toNat) (emitted w w')
          (waitingToken (emitted w w'))) := by
  obtain ⟨gases, reactions, record, hgases, hreactions, hrecord, hcase⟩ :=
    evaluateReactionSequence_ok hsequence
  obtain ⟨hsameGases, hsameReactions⟩ := Prod.mk.inj hregistries
  have hcapacity := capacity.toNat_lt
  refine ⟨gases, reactions, record, hsameGases.symm.trans hgases,
    hsameReactions.symm.trans hreactions, hrecord, ?_⟩
  rw [emitted_of_called hcalled]
  rcases hcase with ⟨himmutable, hevents, hpending, hupdates, hmixture⟩ |
    ⟨hmutable, first, hfirst, -, hnone, hevaluates⟩
  · have htail := hcalled.tail
    rw [hpending] at htail
    have hwritten := hcalled.record
    unfold ReactionSequence.written at hwritten
    rw [hupdates, if_neg (UInt32.lt_irrefl 0), hmixture] at hwritten
    rw [hevents, htail]
    exact ⟨Nat.zero_le _, .inl ⟨himmutable, rfl, hwritten⟩⟩
  · obtain ⟨list, gases', -, hbuilt⟩ := hfurnished reactions (hsameReactions.symm.trans hreactions)
    have hformed := ReactionMetadataRegistry.wellFormed_of_tryNew hbuilt
    subst hfirst
    exact ⟨length_le_reactionEventBound hformed (hsameReactions.symm.trans hreactions) hevaluates
      hcalled (by omega), .inr ⟨hmutable, stands_of_called hcalled hmutable hnone hevaluates⟩⟩

/-- What is known of the calls of a sequence so far. -/
structure SequenceSpec (handle : MixtureHandle) (target : GameplayHandle) (w v : DogmosWorld F)
    (calls : List (List (WorldEvent F))) : Prop where
  pool : PoolFrom v v
  populated : v.Populated
  registries : v.registries = w.registries
  bound : ∀ events ∈ calls, events.length ≤ w.reactionEventBound.toNat
  stands : ∃ gases reactions record, w.gasRegistry = some gases ∧
    w.reactionRegistry = some reactions ∧ w.requireHandle handle = .ok record ∧
    Stands v gases reactions handle target
      (evaluateMixture gases reactions handle target true record) reactions.priorityOrder
      calls.flatten (waitingToken (calls.getLastD []))

/-- **The calls of a sequence evaluate the order**, as far as they have come. -/
theorem SequenceRun.spec (hreachable : Reachable (D := D) w)
    {calls : List (List (WorldEvent F))} (h : SequenceRun (D := D) handle target w v calls) :
    SequenceSpec handle target w v calls := by
  have hfurnished := furnished_of_reachable hreachable
  induction h with
  | @react threshold eventLimit clock haccepted =>
    have hpool := poolFrom_of_reachable hreachable
    obtain ⟨sequence, tail, hsequence, hcount, hcalled⟩ := called_reactMixture hpool haccepted
    obtain ⟨gases, reactions, record, hgases, hreactions, hrecord, hbound, hcase⟩ :=
      stands_of_sequence hfurnished rfl hsequence hcount hcalled
    have hpopulated := populated_of_requireHandle hrecord
    refine ⟨poolFrom_of_reachable (D := D) (.next _ hreachable trivial),
      populated_step hpopulated _, registries_run hpopulated [_],
      fun events hevents => List.mem_singleton.1 hevents ▸ hbound,
      gases, reactions, record, hgases, hreactions, hrecord, ?_⟩
    rw [List.flatten_singleton]
    show Stands _ _ _ _ _ _ _ _ (waitingToken (emitted w _))
    unfold evaluateMixture
    rcases hcase with ⟨himmutable, hempty, hfinal⟩ | ⟨hmutable, hstands⟩
    · rw [if_pos himmutable, hempty]
      exact .through record hfinal rfl (List.nil_sublist _)
    · rw [if_neg (by rw [hmutable]; exact Bool.false_ne_true)]
      exact hstands
  | @resume v calls token op hbefore hwaits between hunchanged hresumes haccepted ih =>
    have hpool := poolFrom_run between ih.pool
    have hregistries := (registries_run ih.populated between).trans ih.registries
    obtain ⟨continuation, sequence, tail, threshold, clock, hfound, hsequence, hcount, hcalled⟩ :=
      called_of_resumes hresumes haccepted
    obtain ⟨gases, reactions, record, hgases, hreactions, hrecord, hstands⟩ := ih.stands
    rw [hwaits] at hstands
    have hcontinuation : ∀ other, v.requireContinuation token = .ok other → continuation = other := by
      intro other hother
      rcases accepted_or_revoked ih.pool hother between with hsame | hrevoked
      · rw [hfound] at hsame
        exact Except.ok.inj hsame
      · exact absurd hfound (hrevoked [] continuation)
    obtain ⟨gases', reactions', paused, hgases', hreactions', hpaused, hbound, hcase⟩ :=
      stands_of_sequence hfurnished hregistries hsequence hcount hcalled
    cases hgases.symm.trans hgases'
    cases hreactions.symm.trans hreactions'
    have hpopulated := populated_of_requireHandle hpaused
    refine ⟨(poolFrom_step (D := D) hpool op).self, populated_step hpopulated op,
      (registries_run hpopulated [op]).trans hregistries, fun events hevents => ?_,
      gases, reactions, record, hgases, hreactions, hrecord, ?_⟩
    · rcases List.mem_append.1 hevents with hevents | hevents
      · exact ih.bound events hevents
      · rw [List.mem_singleton.1 hevents]
        exact hbound
    · rw [List.flatten_append, List.flatten_singleton, List.getLastD_concat]
      refine hstands.resume fun other waiting hother hmixture hholder hwaiting hmutable => ?_
      cases hcontinuation other hother
      subst hmixture
      subst hholder
      rw [← hunchanged, hpaused] at hwaiting
      cases hwaiting
      rcases hcase with ⟨himmutable, -⟩ | ⟨-, hstands'⟩
      · rw [himmutable] at hmutable
        cases hmutable
      · exact hstands'

/-- **Pausing is transparent** up to what writing back drops.  Over the calls of a sequence that is
through, the native reactions finish with the events, and the mixture ends as, in the evaluation of
the whole order in one go that writes the mixture back where the sequence stops.  Where no amount is
dropped there, that is the evaluation without pauses, up to the revision.  Whether the sequence is
through or not, its reactions run once at most, in strictly descending priority, and no call emits
more events than the bound. -/
theorem pauses_transparent {w v : DogmosWorld F32} {handle : MixtureHandle} {target : GameplayHandle}
    {calls : List (List (WorldEvent F32))} (hreachable : Reachable (D := F64) w)
    (h : SequenceRun (D := F64) handle target w v calls) :
    ∃ gases reactions record, w.gasRegistry = some gases ∧ w.reactionRegistry = some reactions ∧
      w.requireHandle handle = .ok record ∧
      (waitingToken (calls.getLastD []) = none → ∃ final, v.requireHandle handle = .ok final ∧
        evaluateMixture gases reactions handle target true record =
          .ok ⟨final, calls.flatten.filter WorldEvent.isFinished⟩ ∧
        (KeepsTraces gases reactions reactions.priorityOrder false record →
          ∃ revision, evaluateMixture gases reactions handle target false record =
            .ok ⟨{ final with revision }, calls.flatten.filter WorldEvent.isFinished⟩)) ∧
      (calls.flatten.filterMap WorldEvent.executes).Nodup ∧
      (calls.flatten.filterMap WorldEvent.executes).Pairwise (fun a b =>
        ReactionMetadataRegistry.priorityOf reactions.reactions b <
          ReactionMetadataRegistry.priorityOf reactions.reactions a) ∧
      ∀ events ∈ calls, events.length ≤ w.reactionEventBound.toNat := by
  have hspec := h.spec hreachable
  obtain ⟨gases, reactions, record, hgases, hreactions, hrecord, hstands⟩ := hspec.stands
  obtain ⟨list, gases', hinstalled, hbuilt⟩ := furnished_of_reachable hreachable reactions hreactions
  have hformed := ReactionMetadataRegistry.wellFormed_of_tryNew hbuilt
  have hexecuted : (calls.flatten.filterMap WorldEvent.executes).Sublist reactions.priorityOrder := by
    generalize waitingToken (calls.getLastD []) = waiting at hstands
    cases hstands with
    | through final hfinal hevaluated hexecuted => exact hexecuted
    | waits token continuation paused hfound hmixture hholder hpaused hmutable hevaluated hexecuted =>
      exact (List.sublist_append_left _ _).trans hexecuted
  refine ⟨gases, reactions, record, hgases, hreactions, hrecord, fun hthrough => ?_,
    hexecuted.nodup hformed.nodup,
    (ReactionMetadataRegistry.descending_of_tryNew hbuilt).sublist hexecuted, hspec.bound⟩
  rw [hthrough] at hstands
  cases hstands with
  | through final hfinal hevaluated _ =>
    refine ⟨final, hfinal, hevaluated, fun hkeeps => ?_⟩
    unfold evaluateMixture at hevaluated ⊢
    by_cases himmutable : record.immutable = true
    · rw [if_pos himmutable] at hevaluated ⊢
      obtain ⟨hsame, hnone⟩ := Evaluated.mk.inj (Except.ok.inj hevaluated)
      exact ⟨record.revision, by rw [← hsame, ← hnone]⟩
    · rw [if_neg himmutable] at hevaluated ⊢
      have hagree : AgreeUpToRevision
          (evaluateOrder gases reactions handle target false reactions.priorityOrder false record)
          (evaluateOrder gases reactions handle target true reactions.priorityOrder false record) :=
        agree_of_keepsTraces reactions.priorityOrder false false record record.revision (.inl rfl)
          hkeeps
      rw [hevaluated] at hagree
      rcases hplain : evaluateOrder gases reactions handle target false reactions.priorityOrder false
          record with error | plain
      · rw [hplain] at hagree
        exact hagree.elim
      · rw [hplain] at hagree
        obtain ⟨hfinished, revision, hmixture⟩ := hagree
        dsimp only at hfinished hmixture
        refine ⟨plain.mixture.revision, ?_⟩
        rw [← hfinished, hmixture]

/-! ## A trace that is dropped -/

/-- The gases of a hydrogen fire. -/
def burnGases : List (GasMetadata F32) :=
  [oxygen, { oxygen with id := ⟨1⟩, key := "hydrogen" }, { oxygen with id := ⟨2⟩, key := "water_vapor" }]

/-- Two hydrogen fires, and a reaction of the client between them. -/
def burnReactions : List (ReactionMetadata F32) :=
  [{ dmOnly with id := ⟨0⟩, key := "first", priority := 3.0, execution := .native .hydrogen },
    { dmOnly with id := ⟨1⟩, priority := 2.0 },
    { dmOnly with id := ⟨2⟩, key := "last", priority := 1.0, execution := .native .hydrogen }]

/-- A mixture with so little hydrogen that half of it is a trace. -/
def burnWorld : DogmosWorld F32 :=
  System.run (step (D := F64)) (newWithCapacities 0 0 100000 8 4)
    [.installGases burnGases, .installReactions burnReactions,
      .applyLifecycle [⟨.register, ⟨0, 1⟩⟩], .applyCommand (.setMoles ⟨0, 1⟩ ⟨0⟩ 1.0) unprofiled,
      .applyCommand (.setMoles ⟨0, 1⟩ ⟨1⟩ 0.015) unprofiled]

/-- The request that burns the first half. -/
abbrev burnReact : Op F32 F64 := .reactMixture ⟨0, 1⟩ ⟨0, 1⟩ none 8 unprofiled

/-- The call that goes on behind the reaction of the client. -/
abbrev burnResume : Op F32 F64 := .resumeReaction ⟨0, 1⟩ 0 8 unprofiled

/-- The calls of the sequence. -/
def burnCalls : List (List (WorldEvent F32)) :=
  [emitted burnWorld (step burnWorld burnReact),
    emitted (step burnWorld burnReact) (step (step burnWorld burnReact) burnResume)]

theorem burnWorld_reachable : Reachable (D := F64) burnWorld :=
  System.reachable_run ⟨0, 0, 100000, 8, 4, rfl⟩ _

theorem burnRun : SequenceRun (D := F64) ⟨0, 1⟩ ⟨0, 1⟩ burnWorld
    (step (step burnWorld burnReact) burnResume) burnCalls :=
  .resume (.react (accepted_of_isOk (by decide +kernel))) (by decide +kernel) [] rfl
    (.request 8 unprofiled) (accepted_of_isOk (by decide +kernel))

theorem pauses_transparent_burnWorld :
    ∃ gases reactions record, burnWorld.gasRegistry = some gases ∧
      burnWorld.reactionRegistry = some reactions ∧
      burnWorld.requireHandle ⟨0, 1⟩ = .ok record ∧
      (waitingToken (burnCalls.getLastD []) = none →
        ∃ final, (step (step burnWorld burnReact) burnResume).requireHandle ⟨0, 1⟩ = .ok final ∧
          evaluateMixture gases reactions ⟨0, 1⟩ ⟨0, 1⟩ true record =
            .ok ⟨final, burnCalls.flatten.filter WorldEvent.isFinished⟩) := by
  obtain ⟨gases, reactions, record, hgases, hreactions, hrecord, hthrough, -⟩ :=
    pauses_transparent burnWorld_reachable burnRun
  refine ⟨gases, reactions, record, hgases, hreactions, hrecord, fun h => ?_⟩
  obtain ⟨final, hfinal, hevaluated, -⟩ := hthrough h
  exact ⟨final, hfinal, hevaluated⟩

/-- The number of native reactions that the evaluation without pauses finishes. -/
def plainlyFinished (w : DogmosWorld F32) (handle : MixtureHandle) (target : GameplayHandle) :
    Option Nat :=
  match w.gasRegistry, w.reactionRegistry, w.requireHandle handle with
  | some gases, some reactions, .ok record =>
    match evaluateMixture gases reactions handle target false record with
    | .ok evaluated => some evaluated.finished.length
    | .error _ => none
  | _, _, _ => none

/-- **A pause changes what runs**: writing the mixture back drops the rest of the hydrogen, so the
second fire does not burn, while without the pause it does. -/
theorem trace_dropped_at_pause : ∃ (w v : DogmosWorld F32) (handle : MixtureHandle)
    (target : GameplayHandle) (calls : List (List (WorldEvent F32))), Reachable (D := F64) w ∧
      SequenceRun (D := F64) handle target w v calls ∧ waitingToken (calls.getLastD []) = none ∧
      (calls.flatten.filter WorldEvent.isFinished).length = 1 ∧
      plainlyFinished w handle target = some 2 :=
  ⟨burnWorld, _, ⟨0, 1⟩, ⟨0, 1⟩, burnCalls, burnWorld_reachable, burnRun, by decide +kernel,
    by decide +kernel, by decide +kernel⟩

end DogmosWorld

end Dogmos
