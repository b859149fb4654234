import Dogmos.Lib.Worklist
import Dogmos.Runs.Live

/-!
# The targets of a reaction stage

A reaction stage goes through the turfs of the frontier, first to collect its
targets and then to run their sequences.  `remainingSequences` is what it has
still to run: the mixtures of the targets and turfs it has not looked at, each
once, without those it saw and those that waited for a continuation when it
started.

A unit of the preparation leaves that unchanged, and a unit of the targets runs
the first of them or leaves it unchanged (`remainingSequences_of_unit`).  So the
sequences that the chunks of a stage run are, in order, the ones that remained
(`evaluations_loop`).
-/

namespace Dogmos

open Exec Chunk Worklist

variable {F D : Type}

/-! ## The scratch of a reaction stage -/

/-- The stage does not run the sequence of the mixture, now or later. -/
def StageReactionState.passesOver (state : StageReactionState F) (mixture : MixtureHandle) : Bool :=
  SlotSet.contains state.seenMixtures mixture || SlotSet.contains state.activeContinuations mixture

/-- Scratch that remembers nothing of an earlier stage. -/
structure StageReactionState.Blank (state : StageReactionState F) : Prop where
  targets : state.targets = []
  nextTarget : state.nextTarget = 0
  pending : state.pending = none
  seenFresh : SlotIndex.Fresh state.seenMixtures
  activeFresh : SlotIndex.Fresh state.activeContinuations
  seen : ∀ mixture, SlotSet.contains state.seenMixtures mixture = false
  active : ∀ mixture, SlotSet.contains state.activeContinuations mixture = false

theorem StageReactionState.blank_new (publication : PublicationId) :
    (StageReactionState.new publication : StageReactionState F).Blank where
  targets := rfl
  nextTarget := rfl
  pending := rfl
  seenFresh := SlotIndex.fresh_new
  activeFresh := SlotIndex.fresh_new
  seen := SlotSet.contains_new
  active := SlotSet.contains_new

/-- Both indexes of the scratch are in order. -/
def StageReactionState.Fresh (state : StageReactionState F) : Prop :=
  SlotIndex.Fresh state.seenMixtures ∧ SlotIndex.Fresh state.activeContinuations

theorem StageReactionState.blank_clear {state : StageReactionState F} (h : state.Fresh)
    (publication : PublicationId) : (state.clear publication).Blank where
  targets := rfl
  nextTarget := rfl
  pending := rfl
  seenFresh := SlotIndex.fresh_clear h.1
  activeFresh := SlotIndex.fresh_clear h.2
  seen := SlotSet.contains_clear h.1
  active := SlotSet.contains_clear h.2

namespace DogmosWorld

/-- The mixture of a turf, read off its shape. -/
theorem capturableMixture_eq (w : DogmosWorld F) (turf : TurfHandle) :
    w.capturableMixture turf = (w.turfShape turf).bind Prod.fst := by
  unfold capturableMixture
  rcases hturf : w.requireTurfHandle turf with error | record
  · rcases hshape : w.turfShape turf with _ | shape
    · rfl
    · obtain ⟨record, hrecord, -⟩ := turfShape_eq_some.1 hshape
      rw [hturf] at hrecord
      cases hrecord
  · rw [turfShape_eq_some.2 ⟨record, hturf, rfl⟩]
    rfl

/-- The mixtures a stage has not looked at: those of the targets that are left, and of the turfs
that are still to be prepared. -/
def upcomingMixtures (w : DogmosWorld F) (state : StageReactionState F) : List MixtureHandle :=
  (state.targets.drop state.nextTarget).map Prod.snd ++
    (w.frontier.committed.drop w.nextFrontierIndex.toNat).filterMap w.capturableMixture

/-- The mixtures whose sequences the running reaction stage has still to run, in order. -/
def remainingSequences (w : DogmosWorld F) : List MixtureHandle :=
  match w.stageReactions with
  | some state => outstanding state.passesOver (w.upcomingMixtures state)
  | none => []

/-- The mixtures whose sequences a reaction stage runs that starts in the world, in order: those of
the turfs of the frontier, each once, without those that wait for a continuation. -/
def stageTargets (w : DogmosWorld F) : List MixtureHandle :=
  outstanding (fun mixture => decide (mixture ∈ w.continuationMixtures))
    (w.frontier.committed.filterMap w.capturableMixture)

/-! ## What stays the same while a stage runs -/

/-- What the targets of a stage depend on, apart from its scratch. -/
structure StageFrame (w w' : DogmosWorld F) : Prop where
  shapes : KeepsShapes w w'
  live : KeepsLive w w'
  committed : w'.frontier.committed = w.frontier.committed

namespace StageFrame

variable {w w' w'' : DogmosWorld F}

theorem refl (w : DogmosWorld F) : StageFrame w w := ⟨.refl w, .refl w, rfl⟩

theorem trans (h : StageFrame w w') (h' : StageFrame w' w'') : StageFrame w w'' :=
  ⟨h.shapes.trans h'.shapes, h.live.trans h'.live, h'.committed.trans h.committed⟩

theorem unitStep [FloatFormat F] (h : UnitStep w w') : StageFrame w w' := by
  refine ⟨keepsShapes_of_unitStep h, .unitStep h, ?_⟩
  cases h with
  | stageMixture slot id candidate _ _ =>
    unfold DogmosWorld.stageMixture
    split <;> rfl
  | writePreparedTurf slot id f _ _ =>
    unfold writePreparedTurf stageTurf
    split
    · split <;> rfl
    · rfl
  | _ => rfl

theorem capturable (h : StageFrame w w') (hagrees : w.Agrees) :
    w'.capturableMixture = w.capturableMixture := by
  funext turf
  rw [capturableMixture_eq, capturableMixture_eq, h.shapes.shapes hagrees]

/-- With the same scratch, the same sequences remain. -/
theorem remaining (h : StageFrame w w') (hagrees : w.Agrees)
    (hreactions : w'.stageReactions = w.stageReactions) (hcursor : w'.stageCursor = w.stageCursor) :
    w'.remainingSequences = w.remainingSequences := by
  unfold remainingSequences upcomingMixtures nextFrontierIndex
  rw [hreactions, hcursor, h.committed, h.capturable hagrees]

end StageFrame

/-! ## Units -/

/-- The scratch of a running reaction stage between two units. -/
structure InOrder (w : DogmosWorld F) (state : StageReactionState F) : Prop where
  fresh : state.Fresh
  nextTarget : state.nextTarget ≤ state.targets.length
  seen : ∀ mixture, SlotSet.contains state.seenMixtures mixture = true → w.Live mixture
  active : ∀ mixture, SlotSet.contains state.activeContinuations mixture = true → w.Live mixture

theorem InOrder.frame {w w' : DogmosWorld F} {state : StageReactionState F} (h : w.InOrder state)
    (hframe : KeepsLive w w') : w'.InOrder state :=
  ⟨h.fresh, h.nextTarget, fun mixture hseen => hframe mixture (h.seen mixture hseen),
    fun mixture hactive => hframe mixture (h.active mixture hactive)⟩

section Units

variable [FloatFormat F] {w : DogmosWorld F} {state : StageReactionState F}

/-- The targets a turf adds. -/
def turfTargets (w : DogmosWorld F) (turf : TurfHandle) : List (TurfHandle × MixtureHandle) :=
  (w.capturableMixture turf).toList.map fun mixture => (turf, mixture)

omit [FloatFormat F] in
theorem run_reactionState (hstate : w.stageReactions = some state) :
    run reactionState w = (.ok state, w) := by
  unfold reactionState
  rw [run_check, hstate]
  rfl

/-- One unit of the preparation of a reaction stage. -/
theorem run_prepareNext_react (hstate : w.stageReactions = some state) :
    run (prepareNext (F := F) .react) w =
      (.ok (), { w with
        stageReactions := some { state with
          targets := state.targets ++
            (w.frontier.committed[w.nextFrontierIndex.toNat]?.map w.turfTargets).getD [] }
        stageCursor := w.stageCursor.map fun cursor =>
          { cursor with nextFrontierIndex := cursor.nextFrontierIndex + 1 } }) := by
  have hadvance : ∀ v : DogmosWorld F, run advanceCursor v = (.ok (), { v with
      stageCursor := v.stageCursor.map fun cursor =>
        { cursor with nextFrontierIndex := cursor.nextFrontierIndex + 1 } }) := fun v => rfl
  unfold prepareNext
  rw [run_bind, run_get]
  dsimp only
  rcases hturf : w.frontier.committed[w.nextFrontierIndex.toNat]? with _ | turf
  · dsimp only
    rw [hadvance]
    simp only [Option.map_none, Option.getD_none, List.append_nil]
    rw [← hstate]
  · dsimp only
    rw [run_bind]
    unfold prepareStageTurf prepareStageReactionTurf turfTargets
    dsimp only
    rw [run_bind, run_get]
    dsimp only
    rcases hmixture : w.capturableMixture turf with _ | mixture
    · rw [run_pure]
      dsimp only
      rw [hadvance]
      simp only [Option.map_some, Option.getD_some, hmixture, Option.toList_none, List.map_nil,
        List.append_nil]
      rw [← hstate]
    · unfold setReactions
      dsimp only
      rw [run_bind, run_reactionState hstate]
      dsimp only
      rw [run_modify]
      dsimp only
      rw [hadvance]
      simp only [Option.map_some, Option.getD_some, hmixture, Option.toList_some, List.map_cons,
        List.map_nil]

omit [FloatFormat F] in
theorem evaluatedTarget_eq (hstate : w.stageReactions = some state) {turf : TurfHandle}
    {mixture : MixtureHandle} (htarget : state.targets[state.nextTarget]? = some (turf, mixture)) :
    w.evaluatedTarget = if state.passesOver mixture then none else some (turf, mixture) := by
  unfold evaluatedTarget StageReactionState.passesOver SlotSet.insertNew
  rw [hstate]
  simp only [Option.bind_eq_bind, Option.bind_some, htarget, Bool.not_not]
  rfl

/-- What one unit of the targets does: it passes its mixture over, or runs its sequence. -/
structure TargetUnit (w : DogmosWorld F) (state : StageReactionState F) (turf : TurfHandle)
    (mixture : MixtureHandle) (w' : DogmosWorld F) (state' : StageReactionState F) : Prop where
  reactions : w'.stageReactions = some state'
  cursor : w'.stageCursor = w.stageCursor
  targets : state'.targets = state.targets
  nextTarget : state'.nextTarget = state.nextTarget + 1
  seen : state'.seenMixtures = SlotIndex.insert state.seenMixtures mixture ()
  active : state'.activeContinuations = state.activeContinuations
  skipped : state.passesOver mixture = true → state'.pending = state.pending
  sequence : state.passesOver mixture = false → ∃ sequence,
    w.evaluateReactionSequence (.ofTurf turf) mixture 0 0 none unprofiled = .ok sequence ∧
      state'.pending = match sequence.pending with
        | some pending => some (turf, mixture, pending)
        | none => state.pending

theorem triple_computeNextTarget (hstate : w.stageReactions = some state) {turf : TurfHandle}
    {mixture : MixtureHandle} (htarget : state.targets[state.nextTarget]? = some (turf, mixture)) :
    Triple (fun v => v = w) (computeNextTarget (F := F))
      (fun _ w' => ∃ state', TargetUnit w state turf mixture w' state') fun _ _ => True := by
  rintro v rfl
  unfold computeNextTarget computeStageReactionTarget setReactions
  rw [run_bind, run_reactionState hstate]
  dsimp only
  rw [run_bind, run_bind, run_reactionState hstate]
  dsimp only
  rw [htarget]
  dsimp only
  rw [run_bind, run_modify]
  dsimp only
  have hpasses : (!(SlotSet.insertNew state.seenMixtures mixture).1 ||
      SlotSet.contains state.activeContinuations mixture) = state.passesOver mixture := by
    unfold SlotSet.insertNew StageReactionState.passesOver
    rw [Bool.not_not]
    rfl
  by_cases hpassed : state.passesOver mixture = true
  · rw [if_pos (hpasses.trans hpassed), run_pure]
    dsimp only
    rw [run_bind, run_reactionState rfl]
    dsimp only
    rw [run_modify]
    exact ⟨_, rfl, rfl, rfl, rfl, rfl, rfl, fun _ => rfl, fun h => by rw [hpassed] at h; cases h⟩
  · rw [if_neg (by rw [hpasses]; exact hpassed), run_bind, run_check]
    rcases hsequence : v.evaluateReactionSequence (.ofTurf turf) mixture 0 0 none unprofiled with
      error | sequence
    · have hsame : DogmosWorld.evaluateReactionSequence { v with
          stageReactions := some { state with
            seenMixtures := (SlotSet.insertNew state.seenMixtures mixture).2 } }
          (.ofTurf turf) mixture 0 0 none unprofiled = .error error := hsequence
      rw [hsame]
      trivial
    · have hsame : DogmosWorld.evaluateReactionSequence { v with
          stageReactions := some { state with
            seenMixtures := (SlotSet.insertNew state.seenMixtures mixture).2 } }
          (.ofTurf turf) mixture 0 0 none unprofiled = .ok sequence := hsequence
      rw [hsame]
      dsimp only
      rw [run_bind, run_modify]
      dsimp only
      have hrest : ∀ u : DogmosWorld F, u.stageCursor = v.stageCursor →
          u.stageReactions = some (stagedSequence { state with
            seenMixtures := (SlotSet.insertNew state.seenMixtures mixture).2 } turf mixture sequence) →
          Triple (fun t => t = u) (do
            let state ← reactionState
            setReactions { state with nextTarget := state.nextTarget + 1 } : WorldM F Unit)
            (fun _ w' => ∃ state', TargetUnit v state turf mixture w' state') fun _ _ => True := by
        rintro u hcursor hreactions _ rfl
        unfold setReactions
        rw [run_bind, run_reactionState hreactions]
        dsimp only
        rw [run_modify]
        exact ⟨_, rfl, hcursor, rfl, rfl, rfl, rfl, fun h => absurd h hpassed,
          fun _ => ⟨sequence, hsequence, rfl⟩⟩
      unfold setReactions at hrest
      by_cases hupdates : 0 < sequence.nativeUpdates
      · rw [if_pos hupdates, run_modify]
        dsimp only
        refine hrest _ ?_ ?_ _ rfl
        · unfold stageMixture
          split <;> rfl
        · unfold stageMixture
          split <;> rfl
      · rw [if_neg hupdates, run_pure]
        dsimp only
        exact hrest { v with
          stageReactions := some (stagedSequence { state with
            seenMixtures := (SlotSet.insertNew state.seenMixtures mixture).2 } turf mixture sequence) }
          rfl rfl _ rfl

theorem live_of_evaluateReactionSequence {target : GameplayHandle} {mixture : MixtureHandle}
    {start flags : UInt32} {threshold : Option F} {clock : Nat → F} {sequence : ReactionSequence F}
    (h : w.evaluateReactionSequence target mixture start flags threshold clock = .ok sequence) :
    w.Live mixture := by
  unfold evaluateReactionSequence at h
  rcases hrecord : w.requireHandle mixture with error | record
  · rcases hgases : w.requireGases with _ | gases
    · rw [hgases] at h
      cases h
    · rcases hreactions : w.requireReactions with _ | reactions
      · rw [hgases, hreactions] at h
        cases h
      · rw [hgases, hreactions, hrecord] at h
        cases h
  · exact live_of_requireHandle hrecord

omit [FloatFormat F] in
/-- A live mixture that was looked at is passed over from then on. -/
theorem InOrder.passesOver_insert (h : w.InOrder state) {state' : StageReactionState F}
    {mixture : MixtureHandle} (hlive : w.Live mixture)
    (hseen : state'.seenMixtures = SlotIndex.insert state.seenMixtures mixture ())
    (hactive : state'.activeContinuations = state.activeContinuations) (other : MixtureHandle) :
    state'.passesOver other = (state.passesOver other || decide (other = mixture)) := by
  unfold StageReactionState.passesOver
  rw [hseen, hactive, SlotSet.contains_insert]
  by_cases hslot : SlotKey.slot other = SlotKey.slot mixture
  · rw [if_pos hslot]
    by_cases hsame : other = mixture
    · simp [hsame]
    · have hunseen : SlotSet.contains state.seenMixtures other = false := by
        by_contra hcontains
        have hother := h.seen other (by simpa using hcontains)
        exact hsame (hother.eq hlive (UInt32.toNat_inj.1 hslot))
      simp [hsame, hunseen]
  · have hother : other ≠ mixture := fun heq => hslot (by rw [heq])
    rw [if_neg hslot]
    simp [hother]

theorem TargetUnit.inOrder {turf : TurfHandle} {mixture : MixtureHandle} {w' : DogmosWorld F}
    {state' : StageReactionState F} (h : TargetUnit w state turf mixture w' state')
    (horder : w.InOrder state) (htarget : state.targets[state.nextTarget]? = some (turf, mixture))
    (hframe : KeepsLive w w') : w.Live mixture ∧ w'.InOrder state' := by
  have hlive : w.Live mixture := by
    by_cases hpassed : state.passesOver mixture = true
    · unfold StageReactionState.passesOver at hpassed
      rcases Bool.or_eq_true_iff.1 hpassed with hseen | hactive
      · exact horder.seen mixture hseen
      · exact horder.active mixture hactive
    · obtain ⟨sequence, hsequence, -⟩ := h.sequence (by simpa using hpassed)
      exact live_of_evaluateReactionSequence hsequence
  refine ⟨hlive, ⟨?_, ?_, ?_, ?_⟩⟩
  · unfold StageReactionState.Fresh
    rw [h.seen, h.active]
    exact ⟨SlotIndex.fresh_insert horder.fresh.1 _ _, horder.fresh.2⟩
  · have hlength := (List.getElem?_eq_some_iff.1 htarget).1
    rw [h.targets, h.nextTarget]
    omega
  · intro other hother
    rw [h.seen, SlotSet.contains_insert] at hother
    by_cases hslot : SlotKey.slot other = SlotKey.slot mixture
    · rw [if_pos hslot] at hother
      rw [of_decide_eq_true hother]
      exact hframe _ hlive
    · rw [if_neg hslot] at hother
      exact hframe _ (horder.seen other hother)
  · intro other hother
    rw [h.active] at hother
    exact hframe _ (horder.active other hother)

/-- **A unit of the targets** runs the first sequence that remains, or none. -/
theorem TargetUnit.remaining {turf : TurfHandle} {mixture : MixtureHandle} {w' : DogmosWorld F}
    {state' : StageReactionState F} (h : TargetUnit w state turf mixture w' state')
    (hstate : w.stageReactions = some state) (horder : w.InOrder state)
    (htarget : state.targets[state.nextTarget]? = some (turf, mixture)) (hframe : StageFrame w w')
    (hagrees : w.Agrees) :
    w.remainingSequences =
      (w.evaluatedTarget.map Prod.snd).toList ++ w'.remainingSequences := by
  obtain ⟨hlive, -⟩ := h.inOrder horder htarget hframe.live
  have hupcoming : w.upcomingMixtures state = mixture :: w'.upcomingMixtures state' := by
    unfold upcomingMixtures nextFrontierIndex
    obtain ⟨hlength, hget⟩ := List.getElem?_eq_some_iff.1 htarget
    rw [h.cursor, hframe.committed, hframe.capturable hagrees, h.targets, h.nextTarget,
      List.drop_eq_getElem_cons hlength, hget]
    rfl
  have hpasses := horder.passesOver_insert hlive h.seen h.active
  unfold remainingSequences
  rw [hstate, h.reactions, evaluatedTarget_eq hstate htarget]
  dsimp only
  rw [hupcoming]
  by_cases hpassed : state.passesOver mixture = true
  · rw [outstanding_cons_of_skip hpassed, if_pos hpassed, Option.map_none, Option.toList_none,
      List.nil_append]
    refine outstanding_congr fun other _ => ?_
    rw [hpasses other]
    by_cases hother : other = mixture
    · simp [hother, hpassed]
    · simp [hother]
  · rw [outstanding_cons (by simpa using hpassed), if_neg hpassed, Option.map_some,
      Option.toList_some, List.singleton_append]
    congr 1
    exact outstanding_congr fun other _ => (hpasses other).symm

/-- What one unit of the preparation does: it adds the target of the next turf. -/
structure PrepareUnit (w : DogmosWorld F) (state : StageReactionState F) (w' : DogmosWorld F)
    (state' : StageReactionState F) : Prop where
  reactions : w'.stageReactions = some state'
  index : w'.nextFrontierIndex = w.nextFrontierIndex + 1
  state : state' = { state with
    targets := state.targets ++
      (w.frontier.committed[w.nextFrontierIndex.toNat]?.map w.turfTargets).getD [] }

theorem prepareUnit (hstate : w.stageReactions = some state) (hcursor : w.stageCursor.isSome) :
    ∃ w' state', run (prepareNext (F := F) .react) w = (.ok (), w') ∧
      PrepareUnit w state w' state' := by
  obtain ⟨cursor, hcursor⟩ := Option.isSome_iff_exists.1 hcursor
  refine ⟨_, _, run_prepareNext_react hstate, rfl, ?_, rfl⟩
  unfold nextFrontierIndex
  rw [hcursor]
  rfl

omit [FloatFormat F] in
theorem preparationLength_le (w : DogmosWorld F) :
    w.preparationLength.toNat ≤ w.frontier.committed.length := by
  unfold preparationLength UInt32.ofNatClamp
  split
  · rw [UInt32.toNat_ofNatLT]
  · next hsize =>
    have hbound : UInt32.size = 2 ^ 32 := rfl
    have hlast : (UInt32.ofNatLT (UInt32.size - 1) (by decide)).toNat = 2 ^ 32 - 1 := rfl
    omega

omit [FloatFormat F] in
theorem PrepareUnit.inOrder {w' : DogmosWorld F} {state' : StageReactionState F}
    (h : PrepareUnit w state w' state') (horder : w.InOrder state) (hframe : KeepsLive w w') :
    w'.InOrder state' := by
  obtain ⟨hfresh, hnext, hseen, hactive⟩ := horder.frame hframe
  rw [h.state]
  refine ⟨hfresh, ?_, hseen, hactive⟩
  dsimp only
  rw [List.length_append]
  omega

omit [FloatFormat F] in
/-- **A unit of the preparation** leaves the sequences that remain. -/
theorem PrepareUnit.remaining {w' : DogmosWorld F} {state' : StageReactionState F}
    (h : PrepareUnit w state w' state') (hstate : w.stageReactions = some state)
    (horder : w.InOrder state) (hframe : StageFrame w w') (hagrees : w.Agrees)
    (hremaining : w.remainingPreparation ≠ 0) : w'.remainingSequences = w.remainingSequences := by
  have hclamp := w.preparationLength_le
  have hsmall := w.preparationLength.toNat_lt
  unfold remainingPreparation at hremaining
  have hgrown : (w.nextFrontierIndex + 1).toNat = w.nextFrontierIndex.toNat + 1 := by
    rw [UInt32.toNat_add]
    show (w.nextFrontierIndex.toNat + 1) % 2 ^ 32 = _
    omega
  have hlength : w.nextFrontierIndex.toNat < w.frontier.committed.length := by omega
  have hupcoming : w'.upcomingMixtures state' = w.upcomingMixtures state := by
    unfold upcomingMixtures
    rw [h.index, hgrown, hframe.committed, hframe.capturable hagrees, h.state,
      List.drop_eq_getElem_cons hlength, List.getElem?_eq_getElem hlength]
    dsimp only
    rw [List.drop_append_of_le_length horder.nextTarget, List.map_append, List.append_assoc]
    congr 1
    rw [Option.map_some, Option.getD_some, turfTargets, List.filterMap_cons]
    rcases w.capturableMixture w.frontier.committed[w.nextFrontierIndex.toNat] with _ | mixture
    · rfl
    · rfl
  unfold remainingSequences
  rw [hstate, h.reactions]
  dsimp only
  rw [hupcoming, h.state]
  rfl

end Units

/-! ## Sequences that were run -/

section Evaluations

variable [FloatFormat F]

/-- The sequence of an evaluation. -/
def Evaluation.sequence (e : Evaluation F) : Except WorldError (ReactionSequence F) :=
  e.world.evaluateReactionSequence (.ofTurf e.turf) e.mixture 0 0 none unprofiled

/-- The reaction of the client a sequence stops at. -/
def Evaluation.pauses (e : Evaluation F) : Option PendingDmReaction :=
  match e.sequence with
  | .ok sequence => sequence.pending
  | .error _ => none

/-- What the last of the sequences that were run leaves pending. -/
def pendingOf (evaluated : List (Evaluation F)) :
    Option (TurfHandle × MixtureHandle × PendingDmReaction) :=
  evaluated.getLast?.bind fun e => e.pauses.map fun pending => (e.turf, e.mixture, pending)

theorem pendingOf_cons {e : Evaluation F} (he : e.pauses = none) (evaluated : List (Evaluation F)) :
    pendingOf (e :: evaluated) = pendingOf evaluated := by
  unfold pendingOf
  cases evaluated with
  | nil => simp [he]
  | cons next rest => rw [List.getLast?_cons_cons]

end Evaluations

/-! ## The loops of a chunk -/

/-- A reaction stage that runs, at a point where no sequence stopped: what stayed the same since
a world, and the sequences that remain. -/
structure Round (origin : DogmosWorld F) (rest : List MixtureHandle) (w : DogmosWorld F) : Prop where
  frame : StageFrame origin w
  same : SameContinuations origin w
  cursor : w.stageCursor.isSome
  scratch : ∃ state, w.stageReactions = some state ∧ w.InOrder state ∧ state.pending = none
  remaining : w.remainingSequences = rest

section Loops

variable [FloatFormat F] {origin w : DogmosWorld F} {rest : List MixtureHandle}
  {evaluated : List (Evaluation F)}

theorem Round.prepareNext (hagrees : origin.Agrees) (h : Round origin rest w)
    (hremaining : w.remainingPreparation ≠ 0) :
    ∃ w', run (prepareNext (F := F) .react) w = (.ok (), w') ∧ Round origin rest w' := by
  obtain ⟨state, hstate, horder, hpending⟩ := h.scratch
  obtain ⟨w', state', hrun, hunit⟩ := prepareUnit hstate h.cursor
  have hframe : StageFrame w w' ∧ SameContinuations w w' := by
    have hkept := keeps_of_units (J := fun v => StageFrame w v ∧ SameContinuations w v)
      (fun v v' hstep hv => ⟨hv.1.trans (.unitStep hstep), hv.2.trans (.unitStep hstep)⟩)
      (fun origin tokens => keeps_prepareNext origin tokens .react) w ⟨.refl w, .refl w⟩
    rwa [hrun] at hkept
  refine ⟨w', hrun, h.frame.trans hframe.1, h.same.trans hframe.2, ?_, ?_, ?_⟩
  · rw [run_prepareNext_react hstate] at hrun
    rw [← (Prod.mk.inj hrun).2, Option.isSome_map]
    exact h.cursor
  · refine ⟨state', hunit.reactions, hunit.inOrder horder hframe.1.live, ?_⟩
    rw [hunit.state]
    exact hpending
  · rw [hunit.remaining hstate horder hframe.1 (h.frame.shapes.agrees hagrees) hremaining]
    exact h.remaining

/-- The preparation of a chunk leaves the sequences that remain. -/
theorem secured_prepare (hagrees : origin.Agrees) (shouldCancel : Nat → Bool) (workLimit : Nat) :
    Secured (Round origin rest)
      (workWhile workLimit (checkedBefore shouldCancel (fun w => w.remainingPreparation ≠ 0)
        (DogmosWorld.prepareNext (F := F) .react)))
      (Round origin rest) fun _ _ => True := by
  refine triple_get_bind fun chunk hchunk => ?_
  refine triple_mono (secured_workLoop (J := Round origin rest)
    (E := fun _ _ => True) ?_ _) (fun s hs => hs ▸ hchunk)
    (fun _ _ hw => hw) fun _ _ _ => trivial
  refine secured_checkedBefore shouldCancel _ (fun _ _ => trivial) ?_
  rintro v ⟨hv, havailable⟩
  obtain ⟨w', hrun, hw'⟩ := hv.prepareNext hagrees (of_decide_eq_true havailable)
  rw [hrun]
  exact hw'

omit [FloatFormat F] in
theorem run_workLoop_succ (unit : ChunkM F Bool) (budget : Nat) (chunk : Chunk F) :
    run (workLoop unit (budget + 1)) chunk =
      match run unit chunk with
      | (.ok true, chunk) =>
        run (workLoop unit budget) { chunk with workItems := chunk.workItems + 1 }
      | (.ok false, chunk) => (.ok (), chunk)
      | (.error error, chunk) => (.error error, chunk) := by
  rw [workLoop, run_bind]
  rcases run unit chunk with ⟨error | worked, chunk⟩
  · rfl
  · cases worked <;> rfl

/-- One unit of the targets, from the world it starts in. -/
theorem run_targetUnit (shouldCancel : Nat → Bool) (chunk : Chunk F) :
    run (targetUnit shouldCancel) chunk =
      if chunk.world.remainingTargets = 0 then (.ok false, chunk)
      else if shouldCancel chunk.checks then
        (.error .cancelled, { chunk with checks := chunk.checks + 1 })
      else
        match run computeNextTarget chunk.world with
        | (.ok _, w) => (.ok true, { chunk with world := w, checks := chunk.checks + 1 })
        | (.error error, w) => (.error error, { chunk with world := w, checks := chunk.checks + 1 }) := by
  unfold targetUnit checkedBefore
  rw [run_bind, run_get]
  dsimp only
  by_cases hremaining : chunk.world.remainingTargets = 0
  · rw [if_neg (by simp [hremaining]), if_pos hremaining]
    rfl
  · rw [if_pos (by simp [hremaining]), if_neg hremaining, run_bind, run_checkCancelled]
    by_cases hcancel : shouldCancel chunk.checks = true
    · rw [if_pos hcancel, if_pos hcancel]
    · rw [if_neg hcancel, if_neg hcancel]
      dsimp only
      rw [run_bind, run_onWorld]
      rcases run computeNextTarget chunk.world with ⟨error | _, w⟩
      · rfl
      · rfl

/-- Without targets the loop ends at once. -/
theorem targets_done (shouldCancel : Nat → Bool) (budget : Nat) (chunk : Chunk F)
    (h : chunk.world.remainingTargets = 0) :
    targetWorlds shouldCancel budget chunk = [] ∧
      run (workLoop (targetUnit shouldCancel) budget) chunk = (.ok (), chunk) := by
  cases budget with
  | zero => exact ⟨rfl, rfl⟩
  | succ budget =>
    rw [targetWorlds, if_pos (.inl h), run_workLoop_succ, run_targetUnit, if_pos h]
    exact ⟨rfl, rfl⟩

omit [FloatFormat F] in
theorem remainingTargets_of_pending {state : StageReactionState F}
    (hstate : w.stageReactions = some state) (hpending : state.pending.isSome) :
    w.remainingTargets = 0 := by
  unfold remainingTargets
  rw [hstate]
  exact if_pos hpending

omit [FloatFormat F] in
/-- Without a sequence that stopped, targets remain as long as there are any. -/
theorem target_of_remainingTargets {state : StageReactionState F}
    (hstate : w.stageReactions = some state) (hpending : state.pending = none)
    (hremaining : w.remainingTargets ≠ 0) :
    ∃ turf mixture, state.targets[state.nextTarget]? = some (turf, mixture) := by
  unfold remainingTargets at hremaining
  rw [hstate] at hremaining
  dsimp only at hremaining
  rw [hpending, if_neg (by simp)] at hremaining
  have hlength : state.nextTarget < state.targets.length := by omega
  exact ⟨_, _, List.getElem?_eq_getElem hlength⟩

/-- A reaction stage after its sequences: what stayed the same since a world, the sequences that
were run, and those that were to be run. -/
structure Swept (origin : DogmosWorld F) (evaluated : List (Evaluation F)) (rest : List MixtureHandle)
    (w : DogmosWorld F) : Prop where
  frame : StageFrame origin w
  same : SameContinuations origin w
  cursor : w.stageCursor.isSome
  scratch : ∃ state, w.stageReactions = some state ∧ w.InOrder state ∧
    state.pending = pendingOf evaluated
  remaining : rest = evaluated.map Evaluation.mixture ++ w.remainingSequences
  running : ∀ e ∈ evaluated.dropLast, e.pauses = none
  stopped : ∀ turf mixture pending, pendingOf evaluated = some (turf, mixture, pending) → w.Live mixture

/-- What is known of the sequences a chunk ran, also of one that failed. -/
structure Ran (origin : DogmosWorld F) (evaluated : List (Evaluation F)) (rest : List MixtureHandle) :
    Prop where
  planned : ∃ tail, rest = evaluated.map Evaluation.mixture ++ tail
  same : ∀ e ∈ evaluated, SameContinuations origin e.world

/-- One unit of the targets that returns: the sequence it ran, if any, and what remains. -/
theorem Round.computeNextTarget (hagrees : origin.Agrees) (h : Round origin rest w)
    (hremaining : w.remainingTargets ≠ 0) :
    Triple (fun v => v = w) (computeNextTarget (F := F)) (fun _ w' =>
      match w.evaluatedTarget with
      | none => Round origin rest w'
      | some (turf, mixture) =>
        rest = mixture :: w'.remainingSequences ∧
          ((Evaluation.mk w turf mixture).pauses = none → Round origin w'.remainingSequences w') ∧
          ∀ pending, (Evaluation.mk w turf mixture).pauses = some pending →
            Swept origin [⟨w, turf, mixture⟩] rest w' ∧ w'.remainingTargets = 0) fun _ _ => True := by
  obtain ⟨state, hstate, horder, hpending⟩ := h.scratch
  obtain ⟨turf, mixture, htarget⟩ := target_of_remainingTargets hstate hpending hremaining
  rintro v rfl
  have hunit := triple_computeNextTarget hstate htarget v rfl
  have hkept := keeps_of_units (J := fun u => StageFrame v u ∧ SameContinuations v u)
    (fun u u' hstep hu => ⟨hu.1.trans (.unitStep hstep), hu.2.trans (.unitStep hstep)⟩)
    (fun origin tokens => keeps_computeNextTarget origin tokens) v ⟨.refl v, .refl v⟩
  rcases hrun : run (DogmosWorld.computeNextTarget (F := F)) v with ⟨error | _, w'⟩
  · trivial
  · rw [hrun] at hunit hkept
    obtain ⟨state', hunit⟩ := hunit
    obtain ⟨hframe, hsame⟩ := hkept
    obtain ⟨hlive, horder'⟩ := hunit.inOrder horder htarget hframe.live
    have hrest := hunit.remaining hstate horder htarget hframe (h.frame.shapes.agrees hagrees)
    rw [h.remaining] at hrest
    have hcursor : w'.stageCursor.isSome := hunit.cursor ▸ h.cursor
    have hevaluated := evaluatedTarget_eq hstate htarget
    dsimp only
    by_cases hpassed : state.passesOver mixture = true
    · rw [if_pos hpassed] at hevaluated
      rw [hevaluated] at hrest ⊢
      refine ⟨h.frame.trans hframe, h.same.trans hsame, hcursor, ?_, hrest.symm⟩
      exact ⟨state', hunit.reactions, horder', (hunit.skipped hpassed).trans hpending⟩
    · rw [if_neg hpassed] at hevaluated
      rw [hevaluated] at hrest ⊢
      obtain ⟨sequence, hsequence, hstopped⟩ := hunit.sequence (by simpa using hpassed)
      have hpauses : (Evaluation.mk v turf mixture).pauses = sequence.pending := by
        unfold Evaluation.pauses Evaluation.sequence
        rw [hsequence]
      refine ⟨hrest, fun hnone => ?_, fun pending hsome => ⟨?_, ?_⟩⟩
      · rw [hpauses] at hnone
        rw [hnone] at hstopped
        refine ⟨h.frame.trans hframe, h.same.trans hsame, hcursor, ?_, rfl⟩
        exact ⟨state', hunit.reactions, horder', hstopped.trans hpending⟩
      · have hlast : pendingOf [Evaluation.mk v turf mixture] = some (turf, mixture, pending) := by
          unfold pendingOf
          rw [List.getLast?_singleton, Option.bind_some, hsome]
          rfl
        refine ⟨h.frame.trans hframe, h.same.trans hsame, hcursor, ?_, hrest, by simp, ?_⟩
        · refine ⟨state', hunit.reactions, horder', ?_⟩
          rw [hpauses] at hsome
          rw [hlast, hstopped, hsome]
        · intro turf' mixture' pending' hfound
          rw [hlast] at hfound
          cases hfound
          exact hframe.live mixture hlive
      · refine remainingTargets_of_pending hunit.reactions ?_
        rw [hpauses] at hsome
        rw [hstopped, hsome]
        rfl

omit [FloatFormat F] in
/-- The target of a unit is the first sequence that remains. -/
theorem Round.evaluatedTarget (h : Round origin rest w) {turf : TurfHandle} {mixture : MixtureHandle}
    (hremaining : w.remainingTargets ≠ 0) (hevaluated : w.evaluatedTarget = some (turf, mixture)) :
    ∃ tail, rest = mixture :: tail := by
  obtain ⟨state, hstate, horder, hpending⟩ := h.scratch
  obtain ⟨turf', mixture', htarget⟩ := target_of_remainingTargets hstate hpending hremaining
  rw [evaluatedTarget_eq hstate htarget] at hevaluated
  by_cases hpassed : state.passesOver mixture' = true
  · rw [if_pos hpassed] at hevaluated
    cases hevaluated
  · rw [if_neg hpassed] at hevaluated
    cases hevaluated
    obtain ⟨hlength, hget⟩ := List.getElem?_eq_some_iff.1 htarget
    have hrest := h.remaining
    unfold remainingSequences upcomingMixtures at hrest
    rw [hstate] at hrest
    dsimp only at hrest
    rw [List.drop_eq_getElem_cons hlength, hget, List.map_cons, List.cons_append,
      outstanding_cons (by simpa using hpassed)] at hrest
    exact ⟨_, hrest.symm⟩

omit [FloatFormat F] in
theorem Ran.cons (h : Ran origin evaluated rest) {e : Evaluation F} (he : SameContinuations origin e.world) :
    Ran origin (e :: evaluated) (e.mixture :: rest) := by
  obtain ⟨tail, htail⟩ := h.planned
  refine ⟨⟨tail, by rw [htail]; rfl⟩, fun found hfound => ?_⟩
  rcases List.mem_cons.1 hfound with rfl | hfound
  · exact he
  · exact h.same found hfound

theorem Swept.cons (h : Swept origin evaluated rest w) {e : Evaluation F} (he : e.pauses = none) :
    Swept origin (e :: evaluated) (e.mixture :: rest) w := by
  refine ⟨h.frame, h.same, h.cursor, ?_, ?_, ?_, ?_⟩
  · rw [pendingOf_cons he]
    exact h.scratch
  · rw [h.remaining]
    rfl
  · intro found hfound
    cases evaluated with
    | nil => cases hfound
    | cons next later =>
      rw [List.dropLast_cons_cons] at hfound
      rcases List.mem_cons.1 hfound with rfl | hfound
      · exact he
      · exact h.running found hfound
  · rw [pendingOf_cons he]
    exact h.stopped

/-- **The sequences a chunk runs** are, in order, those that remained: none before the last one
stopped, and all of them when the loop ends because nothing remains. -/
theorem evaluations_loop (hagrees : origin.Agrees) (shouldCancel : Nat → Bool) (budget : Nat)
    {chunk : Chunk F} (h : Round origin rest chunk.world) :
    Ran origin (evaluationsIn (targetWorlds shouldCancel budget chunk)) rest ∧
      ∀ result chunk', run (workLoop (targetUnit shouldCancel) budget) chunk = (.ok result, chunk') →
        Swept origin (evaluationsIn (targetWorlds shouldCancel budget chunk)) rest chunk'.world := by
  have hdone : ∀ {chunk : Chunk F} {rest : List MixtureHandle}, Round origin rest chunk.world →
      Swept origin [] rest chunk.world := by
    intro chunk rest h
    refine ⟨h.frame, h.same, h.cursor, h.scratch, h.remaining.symm, by simp, ?_⟩
    intro turf mixture pending hnone
    cases hnone
  have hnone : ∀ rest : List MixtureHandle, Ran origin ([] : List (Evaluation F)) rest :=
    fun rest => ⟨⟨rest, rfl⟩, by simp⟩
  induction budget generalizing chunk rest with
  | zero =>
    refine ⟨hnone rest, fun result chunk' hrun => ?_⟩
    cases hrun
    exact hdone h
  | succ budget ih =>
    rw [run_workLoop_succ, run_targetUnit, targetWorlds]
    by_cases hremaining : chunk.world.remainingTargets = 0
    · rw [if_pos (.inl hremaining), if_pos hremaining]
      refine ⟨hnone rest, fun result chunk' hrun => ?_⟩
      cases hrun
      exact hdone h
    · by_cases hcancel : shouldCancel chunk.checks = true
      · rw [if_pos (.inr hcancel), if_neg hremaining, if_pos hcancel]
        exact ⟨hnone rest, fun result chunk' hrun => by cases hrun⟩
      · rw [if_neg (not_or.2 ⟨hremaining, hcancel⟩), if_neg hremaining, if_neg hcancel]
        have hunit := h.computeNextTarget hagrees hremaining chunk.world rfl
        have hcons : ∀ worlds : List (DogmosWorld F), evaluationsIn (chunk.world :: worlds) =
            (chunk.world.evaluatedTarget.map fun entry =>
              Evaluation.mk chunk.world entry.1 entry.2).toList ++ evaluationsIn worlds := by
          intro worlds
          unfold evaluationsIn
          rw [List.filterMap_cons]
          cases chunk.world.evaluatedTarget <;> rfl
        rcases hrun : run (DogmosWorld.computeNextTarget (F := F)) chunk.world with ⟨error | _, w'⟩
        · refine ⟨?_, fun result chunk' hrun => by cases hrun⟩
          rw [hcons]
          rcases hevaluated : chunk.world.evaluatedTarget with _ | ⟨turf, mixture⟩
          · exact hnone rest
          · obtain ⟨tail, rfl⟩ := h.evaluatedTarget hremaining hevaluated
            exact (hnone tail).cons h.same
        · rw [hrun] at hunit
          dsimp only at hunit ⊢
          rw [hcons]
          rcases hevaluated : chunk.world.evaluatedTarget with _ | ⟨turf, mixture⟩
          · rw [hevaluated] at hunit
            exact ih hunit
          · rw [hevaluated] at hunit
            obtain ⟨rfl, hgoes, hstops⟩ := hunit
            rcases hpauses : (Evaluation.mk chunk.world turf mixture).pauses with _ | pending
            · obtain ⟨hran, hswept⟩ := @ih w'.remainingSequences
                { world := w', workItems := chunk.workItems + 1, checks := chunk.checks + 1 }
                (hgoes hpauses)
              exact ⟨hran.cons h.same, fun result chunk' hrun =>
                (hswept result chunk' hrun).cons hpauses⟩
            · obtain ⟨hswept, hended⟩ := hstops pending hpauses
              obtain ⟨hworlds, hdone⟩ := targets_done shouldCancel budget
                { world := w', workItems := chunk.workItems + 1, checks := chunk.checks + 1 }
                hended
              rw [hworlds]
              refine ⟨(hnone _).cons h.same, fun result chunk' hrun => ?_⟩
              rw [hdone] at hrun
              cases hrun
              exact hswept

end Loops

end DogmosWorld

end Dogmos
