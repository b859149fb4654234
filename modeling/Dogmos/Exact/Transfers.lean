import Dogmos.Exact.Registry
import Dogmos.Runs.Effects

/-!
# What commands on two mixtures leave

In exact arithmetic a number is unchanged exactly when it equals itself, so a command on two
mixtures leaves what it computes from the records it found, whether or not it counts a change.
Each command has the pair of records it computes as a function of the two records (`merged`,
`ratioTransferred`, `gasesTransferred`, `ratioRemoved`, `shared`), and a lemma that says the
command leaves these, up to their revisions (`PairLeft`).
-/

namespace Dogmos

open Exec

/-! ## Equality -/

theorem all_zip_self {α : Type} [BEq α] [LawfulBEq α] (l : List α) :
    ((l.zip l).all fun (a, b) => a == b) = true := by
  induction l with
  | nil => rfl
  | cons a t ih => simp [ih]

theorem gasesEqual_iff {left right : Gases ℚ} : gasesEqual left right = true ↔ left = right := by
  unfold gasesEqual
  constructor
  · intro h
    refine Gases.ext_at fun index hindex => ?_
    have hmem : (left.at index, right.at index) ∈ left.toList.zip right.toList := by
      refine List.mem_of_getElem? (i := index) ?_
      rw [List.getElem?_zip_eq_some]
      exact ⟨Gases.getElem?_toList _ hindex, Gases.getElem?_toList _ hindex⟩
    exact beq_iff_eq.1 (List.all_eq_true.1 h _ hmem)
  · rintro rfl
    exact all_zip_self left.toList

namespace DogmosWorld

variable {w v : DogmosWorld ℚ} {first second : MixtureHandle} {f s f' s' : MixtureRecord ℚ}

theorem requireGases_eq_ok {registry : GasMetadataRegistry ℚ} (h : w.requireGases = .ok registry) :
    registry.specificHeats = w.heats := by
  unfold requireGases at h
  unfold heats
  rcases hgas : w.gasRegistry with _ | installed
  · rw [hgas] at h
    cases h
  · rw [hgas] at h
    cases h
    rfl

theorem heatCapacity_eq_ok {capacity : ℚ} (h : w.heatCapacity f = .ok capacity) :
    capacity = recordHeatCapacity f w.heats := by
  unfold heatCapacity at h
  rcases hregistry : w.requireGases with error | registry
  · rw [hregistry] at h
    cases h
  · rw [hregistry] at h
    cases h
    rw [requireGases_eq_ok hregistry]

theorem requireRatio_eq_ok {ratio clamped : ℚ} (h : requireRatio first second ratio = .ok clamped) :
    first ≠ second ∧ clamped = max 0 (min ratio 1) := by
  unfold requireRatio at h
  by_cases hsame : first = second
  · rw [if_pos hsame] at h
    cases h
  · rw [if_neg hsame] at h
    simp only [Exact.isFinite_eq, Bool.not_true, Bool.false_eq_true, if_false] at h
    cases h
    exact ⟨hsame, clamp_eq ratio⟩

/-! ## Pairs of records -/

/-- Two mixtures were left with these records, up to their revisions. -/
def PairLeft (w v : DogmosWorld ℚ) (first second : MixtureHandle)
    (f s f' s' : MixtureRecord ℚ) : Prop :=
  ∃ firstRevision secondRevision, PairEffect w v first second f s
    { f' with revision := firstRevision } { s' with revision := secondRevision }

theorem PairLeft.of_pairEffect (h : PairEffect w v first second f s f' s') :
    PairLeft w v first second f s f' s' := ⟨f'.revision, s'.revision, h⟩

theorem pairLeft_refl (hfirst : w.requireHandle first = .ok f)
    (hsecond : w.requireHandle second = .ok s) : PairLeft w w first second f s f s :=
  .of_pairEffect ((SameObserved.refl w).pairEffect hfirst hsecond)

theorem leaves_writePair {firstAfter secondAfter : Option (MixtureRecord ℚ)}
    (hfirst : w.requireHandle first = .ok f) (hsecond : w.requireHandle second = .ok s) :
    Leaves w (writePair first second firstAfter secondAfter) fun _ v =>
      PairEffect w v first second f s (firstAfter.getD f) (secondAfter.getD s) := by
  refine leaves_mono (leaves_of_triple triple_writePair) ?_
  rintro _ v ⟨f₁, s₁, heffect⟩
  have hf := heffect.foundFirst
  have hs := heffect.foundSecond
  rw [hfirst] at hf
  rw [hsecond] at hs
  cases hf
  cases hs
  exact heffect

/-- A record that is written when it counts as changed. -/
theorem getD_revised {changed : Bool} (h : changed = false → f' = f) :
    ∃ revision, (if changed then some f'.revised else none).getD f =
      { f' with revision := revision } := by
  cases changed with
  | false => exact ⟨f.revision, by rw [h rfl]; rfl⟩
  | true => exact ⟨f'.revision + 1, rfl⟩

theorem leaves_writeRevised {firstChanged secondChanged : Bool}
    (hfirst : w.requireHandle first = .ok f) (hsecond : w.requireHandle second = .ok s)
    (hf : firstChanged = false → f' = f) (hs : secondChanged = false → s' = s) :
    Leaves w (writePair first second (if firstChanged then some f'.revised else none)
      (if secondChanged then some s'.revised else none)) fun _ v =>
        PairLeft w v first second f s f' s' := by
  refine leaves_mono (leaves_writePair hfirst hsecond) fun _ v heffect => ?_
  obtain ⟨firstRevision, hfirstRecord⟩ := getD_revised hf
  obtain ⟨secondRevision, hsecondRecord⟩ := getD_revised hs
  rw [hfirstRecord, hsecondRecord] at heffect
  exact ⟨firstRevision, secondRevision, heffect⟩

/-! ## Merging -/

/-- The receiver of `merge_mixtures` after it. -/
def merged (heats : List ℚ) (receiver giver : MixtureRecord ℚ) : MixtureRecord ℚ :=
  if receiver.immutable then receiver
  else
    { receiver with
      gases := canonicalizeGases (Vector.zipWith saturatingAdd receiver.gases giver.gases)
      temperature := (mergeRecord receiver giver heats).temperature }

theorem leaves_mergeMixtures : Leaves w (mergeMixtures (D := ℚ) first second) fun _ v =>
    ∃ f s, PairLeft w v first second f s (merged w.heats f s) s := by
  unfold mergeMixtures
  refine leaves_ite (fun _ => leaves_throw _) fun hne => ?_
  refine leaves_check_bind fun f hfirst => leaves_check_bind fun s hsecond => ?_
  by_cases himmutable : f.immutable = true
  · rw [if_neg (by simp [himmutable])]
    refine leaves_pure ⟨f, s, ?_⟩
    rw [merged, if_pos himmutable]
    exact pairLeft_refl hfirst hsecond
  · rw [if_pos (by simp [himmutable])]
    refine leaves_check_bind fun registry hregistry => leaves_bind_pure ?_
    refine leaves_mono (leaves_of_triple triple_mutateMixture_effect) ?_
    rintro _ v ⟨record, -, heffect⟩
    have hfound := heffect.found
    rw [hfirst] at hfound
    cases hfound
    refine ⟨f, s, f.revision + 1, s.revision, hfirst, hsecond, ?_, ?_, ?_⟩
    · rw [heffect.left, merged, if_neg himmutable, ← requireGases_eq_ok hregistry]
      rfl
    · exact (heffect.others second s (slot_ne_of_requireHandle hne hfirst hsecond).symm).2 hsecond
    · intro other record hother _
      exact heffect.others other record hother

/-! ## Transferring a ratio -/

/-- What a mixture keeps when amounts are taken out of it. -/
def withdrawn (record : MixtureRecord ℚ) (removed : Gases ℚ) : MixtureRecord ℚ :=
  if record.immutable then record
  else { record with gases := canonicalizeGases (Vector.zipWith (· - ·) record.gases removed) }

/-- The destination of a transfer after it. -/
def received (heats : List ℚ) (source destination : MixtureRecord ℚ) (removed : Gases ℚ) :
    MixtureRecord ℚ :=
  if destination.immutable then destination
  else
    let capacity := recordHeatCapacity destination heats
    let gases := canonicalizeGases (Vector.zipWith saturatingAdd destination.gases removed)
    let retained := retainedCapacity gases destination.gases heats
    { destination with
      gases := canonicalizeGases gases
      temperature :=
        if minimumHeatCapacity < capacity + retained then
          (capacity * destination.temperature + retained * source.temperature) /
            (capacity + retained)
        else destination.temperature }

/-- The source and the destination of `transfer_ratio_to` after it. -/
def ratioTransferred (heats : List ℚ) (ratio : ℚ) (source destination : MixtureRecord ℚ) :
    MixtureRecord ℚ × MixtureRecord ℚ :=
  if ratio = 0 then (source, destination)
  else
    let removed := source.gases.map fun amount => quantizedRemoval amount ratio
    (withdrawn source removed, received heats source destination removed)

theorem withdrawn_eq_self {removed : Gases ℚ}
    (h : gasesEqual (withdrawn f removed).gases f.gases = true) : withdrawn f removed = f := by
  rw [gasesEqual_iff] at h
  unfold withdrawn at h ⊢
  split
  · rfl
  · next hmutable =>
    rw [if_neg hmutable] at h
    exact congrArg (fun gases => { f with gases }) h

theorem received_eq_self {heats : List ℚ} {removed : Gases ℚ}
    (hgases : gasesEqual (received heats f s removed).gases s.gases = true)
    (htemperature : (received heats f s removed).temperature = s.temperature) :
    received heats f s removed = s := by
  rw [gasesEqual_iff] at hgases
  unfold received at hgases htemperature ⊢
  split
  · rfl
  · next hmutable =>
    rw [if_neg hmutable] at hgases htemperature
    exact congrArg₂ (fun gases temperature => { s with gases, temperature }) hgases htemperature

/-- The end of the transfers that count changes: records that did not change are not written. -/
theorem leaves_writeChanged {firstChanged secondChanged : Bool} {result : UInt32}
    (hfirst : w.requireHandle first = .ok f) (hsecond : w.requireHandle second = .ok s)
    (hf : firstChanged = false → f' = f) (hs : secondChanged = false → s' = s) :
    Leaves w (do
      Exec.check fun _ => requireRevision first f firstChanged
      Exec.check fun _ => requireRevision second s secondChanged
      if !firstChanged && !secondChanged then
        return (0 : UInt32)
      writePair first second (if firstChanged then some f'.revised else none)
        (if secondChanged then some s'.revised else none)
      return result) fun _ v => PairLeft w v first second f s f' s' := by
  refine leaves_check_bind fun _ _ => leaves_check_bind fun _ _ => leaves_ite (fun hsame => ?_)
    fun _ => leaves_bind_pure (leaves_writeRevised hfirst hsecond hf hs)
  rw [Bool.and_eq_true, Bool.not_eq_true', Bool.not_eq_true'] at hsame
  rw [hf hsame.1, hs hsame.2]
  exact leaves_pure (pairLeft_refl hfirst hsecond)

theorem leaves_transferRatioTo {ratio : ℚ} :
    Leaves w (transferRatioTo (D := ℚ) first second ratio) fun _ v =>
      ∃ f s, PairLeft w v first second f s (ratioTransferred w.heats (max 0 (min ratio 1)) f s).1
        (ratioTransferred w.heats (max 0 (min ratio 1)) f s).2 := by
  unfold transferRatioTo
  refine leaves_check_bind fun clamped hclamped => ?_
  obtain ⟨hne, rfl⟩ := requireRatio_eq_ok hclamped
  generalize max 0 (min ratio 1) = clamped
  refine leaves_check_bind fun f hfirst => leaves_check_bind fun s hsecond => ?_
  by_cases hzero : clamped = 0
  · rw [if_pos (by simp [hzero])]
    refine leaves_pure ⟨f, s, ?_⟩
    rw [ratioTransferred, if_pos hzero]
    exact pairLeft_refl hfirst hsecond
  · rw [if_neg (by simp [hzero])]
    have hresult : ∀ v, PairLeft w v first second f s
        (withdrawn f (f.gases.map fun amount => quantizedRemoval amount clamped))
        (received w.heats f s (f.gases.map fun amount => quantizedRemoval amount clamped)) →
        ∃ f s, PairLeft w v first second f s (ratioTransferred w.heats clamped f s).1
          (ratioTransferred w.heats clamped f s).2 := by
      intro v hleft
      refine ⟨f, s, ?_⟩
      rw [ratioTransferred, if_neg hzero]
      exact hleft
    by_cases himmutable : s.immutable = true
    · have hreceived : ∀ removed, received w.heats f s removed = s :=
        fun removed => if_pos himmutable
      rw [hreceived] at hresult
      rw [if_pos himmutable, pure_bind]
      refine leaves_mono (leaves_writeChanged hfirst hsecond ?_ fun _ => rfl) fun _ => hresult
      exact fun h => withdrawn_eq_self (by rwa [Bool.not_eq_false'] at h)
    · rw [if_neg himmutable]
      refine leaves_check_bind fun registry hregistry => ?_
      have hreceived : ∀ removed,
          receiveTransfer registry f s removed = received w.heats f s removed := by
        intro removed
        rw [received, if_neg himmutable, ← requireGases_eq_ok hregistry]
        rfl
      rw [pure_bind, hreceived]
      refine leaves_mono (leaves_writeChanged hfirst hsecond ?_ ?_) fun _ => hresult
      · exact fun h => withdrawn_eq_self (by rwa [Bool.not_eq_false'] at h)
      · intro h
        rw [Bool.or_eq_false_iff, Bool.not_eq_false', bne_eq_false_iff_eq] at h
        exact received_eq_self h.1 h.2

/-- The ratio `TransferAmount` and `RemoveAmountInto` compute from an amount. -/
def ratioOfAmount (source : MixtureRecord ℚ) (amount : ℚ) : ℚ :=
  if 0 < totalMoles source then amount / totalMoles source else 0

theorem amountRatio_eq_ok {amount ratio : ℚ} (h : w.amountRatio first amount = .ok ratio) :
    ∃ f, w.requireHandle first = .ok f ∧ ratio = ratioOfAmount f amount := by
  unfold amountRatio requireFinite at h
  rw [Exact.isFinite_eq] at h
  rcases hfirst : w.requireHandle first with error | f
  · rw [hfirst] at h
    cases h
  · rw [hfirst] at h
    cases h
    refine ⟨f, rfl, ?_⟩
    simp [ratioOfAmount]

/-! ## Transferring gases -/

/-- The source and the destination of `transfer_gases` after it. -/
def gasesTransferred (heats : List ℚ) (ratio : ℚ) (indices : List Nat)
    (source destination : MixtureRecord ℚ) : MixtureRecord ℚ × MixtureRecord ℚ :=
  if ratio = 0 ∨ source.immutable = true ∨ destination.immutable = true then (source, destination)
  else
    let transfers := indices.map fun index => (index, source.gases.at index * ratio)
    let moved := transfers.foldl moveGas (source.gases, destination.gases)
    let gases := canonicalizeGases moved.2
    let energy := recordHeatCapacity destination heats * destination.temperature
    let heat := transfers.foldl
      (fun energy (index, _) =>
        let retained := max (gases.at index - destination.gases.at index) 0
        energy + retained * source.temperature * (paddedHeats heats).at index)
      0
    let capacity := foldHeatCapacity gases heats
    ({ source with gases := canonicalizeGases moved.1 },
      { destination with
        gases
        temperature :=
          if minimumHeatCapacity < capacity then (energy + heat) / capacity
          else destination.temperature })

/-- A loop that fails or computes a function of each element. -/
theorem mapM_eq_ok {ε α β : Type} {f : α → Except ε β} {g : α → β}
    (h : ∀ a b, f a = .ok b → b = g a) : ∀ {l : List α} {bs : List β}, l.mapM f = .ok bs →
      bs = l.map g := by
  intro l
  induction l with
  | nil =>
    intro bs hbs
    cases hbs
    rfl
  | cons a rest ih =>
    intro bs hbs
    rw [List.mapM_cons] at hbs
    rcases ha : f a with error | b
    · rw [ha] at hbs
      cases hbs
    · rw [ha] at hbs
      rcases hrest : rest.mapM f with error | cs
      · rw [hrest] at hbs
        cases hbs
      · rw [hrest] at hbs
        cases hbs
        rw [h a b ha, ih hrest, List.map_cons]

theorem gasIndex_eq_ok {gas : GasId} {index : Nat} (h : w.gasIndex gas = .ok index) :
    index = gas.index := by
  unfold gasIndex at h
  rcases hregistry : w.requireGases with error | registry
  · rw [hregistry] at h
    cases h
  · rw [hregistry] at h
    by_cases hnone : (registry.byId gas).isNone = true
    · simp only [bind, Except.bind, if_pos hnone] at h
      cases h
    · simp only [bind, Except.bind, if_neg hnone] at h
      cases h
      rfl

theorem gasTransfers_eq_ok {ratio : ℚ} {indices : List Nat} {transfers : List (Nat × ℚ)}
    (h : gasTransfers (D := ℚ) f s ratio indices = .ok transfers) :
    transfers = indices.map fun index => (index, f.gases.at index * ratio) := by
  refine mapM_eq_ok (fun index transfer htransfer => ?_) h
  dsimp only at htransfer
  by_cases hover : sumOverflows (s.gases.at index) (f.gases.at index * ratio) = true
  · simp only [bind, Except.bind, if_pos hover] at htransfer
    cases htransfer
  · simp only [bind, Except.bind, if_neg hover] at htransfer
    cases htransfer
    rfl

theorem leaves_transferGases {ratio : ℚ} {gases : List GasId} :
    Leaves w (transferGases (D := ℚ) first second ratio gases) fun _ v =>
      ∃ f s, PairLeft w v first second f s
        (gasesTransferred w.heats (max 0 (min ratio 1)) (gases.map GasId.index) f s).1
        (gasesTransferred w.heats (max 0 (min ratio 1)) (gases.map GasId.index) f s).2 := by
  unfold transferGases
  refine leaves_ite (fun _ => leaves_throw _) fun hne => leaves_check_bind fun _ _ => ?_
  refine leaves_check_bind fun indices hindices => ?_
  have hmap : indices = gases.map GasId.index :=
    mapM_eq_ok (fun gas index => gasIndex_eq_ok) hindices
  rw [← hmap, clamp_eq]
  generalize max 0 (min ratio 1) = clamped
  refine leaves_check_bind fun f hfirst => leaves_check_bind fun s hsecond => ?_
  by_cases hnothing : clamped = 0 ∨ f.immutable = true ∨ s.immutable = true
  · rw [if_pos (by simpa [or_assoc] using hnothing)]
    refine leaves_pure ⟨f, s, ?_⟩
    rw [gasesTransferred, if_pos hnothing]
    exact pairLeft_refl hfirst hsecond
  · rw [if_neg (by simpa [or_assoc] using hnothing)]
    refine leaves_check_bind fun _ _ => leaves_check_bind fun _ _ => ?_
    refine leaves_check_bind fun registry hregistry => ?_
    rw [requireGases_eq_ok hregistry]
    refine leaves_check_bind fun transfers htransfers => ?_
    cases gasTransfers_eq_ok htransfers
    refine leaves_bind_pure (leaves_mono (leaves_writePair hfirst hsecond) fun _ v heffect => ?_)
    refine ⟨f, s, ?_⟩
    rw [gasesTransferred, if_neg hnothing]
    rw [foldHeatCapacity_paddedHeats, exact_zero] at heffect
    exact ⟨_, _, heffect⟩

/-- The gases with one of the flags, as indices. -/
def flagged (w : DogmosWorld ℚ) (flags : UInt32) : List Nat :=
  (((w.gasRegistry.map GasMetadataRegistry.gases).getD []).filter fun gas =>
    gas.flags &&& flags ≠ 0).map fun gas => gas.id.index

/-- The source and the destination of `TransferByFlags` after it. -/
def flagsTransferred (heats : List ℚ) (indices : List Nat) (amount : ℚ)
    (source destination : MixtureRecord ℚ) : MixtureRecord ℚ × MixtureRecord ℚ :=
  if amount ≤ 0 ∨ indices = [] ∨ totalMoles source ≤ 0 then (source, destination)
  else
    gasesTransferred heats (max 0 (min (amount / totalMoles source) 1)) indices source destination

theorem leaves_transferByFlags {flags : UInt32} {amount : ℚ}
    (hfirst : w.requireHandle first = .ok f) (hsecond : w.requireHandle second = .ok s) :
    Leaves w (transferByFlags (D := ℚ) first second flags amount) fun _ v =>
      PairLeft w v first second f s (flagsTransferred w.heats (w.flagged flags) amount f s).1
        (flagsTransferred w.heats (w.flagged flags) amount f s).2 := by
  have hnothing : (amount ≤ 0 ∨ w.flagged flags = [] ∨ totalMoles f ≤ 0) →
      PairLeft w w first second f s (flagsTransferred w.heats (w.flagged flags) amount f s).1
        (flagsTransferred w.heats (w.flagged flags) amount f s).2 := by
    intro h
    rw [flagsTransferred, if_pos h]
    exact pairLeft_refl hfirst hsecond
  unfold transferByFlags
  refine leaves_ite (fun hamount => leaves_pure (hnothing (.inl ?_))) fun hamount => ?_
  · simpa using hamount
  refine leaves_check_bind fun registry hregistry => ?_
  have hflagged : ((registry.gases.filter fun gas => gas.flags &&& flags ≠ 0).map
      GasMetadata.id).map GasId.index = w.flagged flags := by
    unfold requireGases at hregistry
    unfold flagged
    rcases hgas : w.gasRegistry with _ | installed
    · rw [hgas] at hregistry
      cases hregistry
    · rw [hgas] at hregistry
      cases hregistry
      rw [List.map_map]
      rfl
  dsimp only
  generalize (registry.gases.filter fun gas => gas.flags &&& flags ≠ 0).map GasMetadata.id = gases
    at hflagged
  refine leaves_ite (fun hempty => leaves_pure (hnothing (.inr (.inl ?_)))) fun hempty => ?_
  · rw [← hflagged, List.isEmpty_iff.1 hempty, List.map_nil]
  refine leaves_check_bind fun found hfound => ?_
  rw [hfirst] at hfound
  cases hfound
  refine leaves_ite (fun htotal => leaves_pure (hnothing (.inr (.inr ?_)))) fun htotal => ?_
  · simpa using htotal
  refine leaves_bind_pure (leaves_mono leaves_transferGases ?_)
  rintro _ v ⟨f₁, s₁, firstRevision, secondRevision, heffect⟩
  have hf := heffect.foundFirst
  have hs := heffect.foundSecond
  rw [hfirst] at hf
  rw [hsecond] at hs
  cases hf
  cases hs
  refine ⟨firstRevision, secondRevision, ?_⟩
  rw [flagsTransferred, if_neg, ← hflagged]
  · exact heffect
  · rw [← hflagged]
    simp only [not_or]
    refine ⟨by simpa using hamount, fun h => hempty ?_, by simpa using htotal⟩
    rw [List.map_eq_nil_iff] at h
    rw [h]
    rfl

/-! ## Removing into another mixture -/

/-- The source and the destination of `remove_ratio_into` after it. -/
def ratioRemoved (canonicalizeTraces : Bool) (ratio : ℚ) (source destination : MixtureRecord ℚ) :
    MixtureRecord ℚ × MixtureRecord ℚ :=
  if ratio = 0 ∨ destination.immutable = true then (source, destination)
  else
    let removed := source.gases.map fun amount => quantizedRemoval amount ratio
    let canonical := fun (gases : Gases ℚ) =>
      if canonicalizeTraces then canonicalizeGases gases else gases
    (if source.immutable then source
      else { source with gases := canonical (Vector.zipWith (· - ·) source.gases removed) },
      { destination with gases := canonical removed, temperature := source.temperature })

theorem leaves_removeRatioInto {ratio : ℚ} {canonicalizeTraces : Bool} :
    Leaves w (removeRatioInto first second ratio canonicalizeTraces) fun _ v =>
      ∃ f s, PairLeft w v first second f s
        (ratioRemoved canonicalizeTraces (max 0 (min ratio 1)) f s).1
        (ratioRemoved canonicalizeTraces (max 0 (min ratio 1)) f s).2 := by
  unfold removeRatioInto
  refine leaves_check_bind fun clamped hclamped => ?_
  obtain ⟨hne, rfl⟩ := requireRatio_eq_ok hclamped
  generalize max 0 (min ratio 1) = clamped
  refine leaves_check_bind fun f hfirst => leaves_check_bind fun s hsecond => ?_
  by_cases hnothing : clamped = 0 ∨ s.immutable = true
  · rw [if_pos (by simpa using hnothing)]
    refine leaves_pure ⟨f, s, ?_⟩
    rw [ratioRemoved, if_pos hnothing]
    exact pairLeft_refl hfirst hsecond
  · rw [if_neg (by simpa using hnothing)]
    refine leaves_check_bind fun _ _ => leaves_check_bind fun _ _ => ?_
    refine leaves_bind_pure (leaves_mono (leaves_writePair hfirst hsecond) fun _ v heffect => ?_)
    refine ⟨f, s, ?_⟩
    rw [ratioRemoved, if_neg hnothing]
    dsimp only [Option.getD_some] at heffect ⊢
    cases himmutable : f.immutable with
    | false =>
      rw [himmutable] at heffect
      exact ⟨_, _, heffect⟩
    | true =>
      rw [himmutable] at heffect
      exact ⟨f.revision, _, heffect⟩

/-! ## Sharing -/

/-- The two records of `share_ratio` after it. -/
def shared (heats : List ℚ) (ratio : ℚ) (oneWay : Bool) (first second : MixtureRecord ℚ) :
    MixtureRecord ℚ × MixtureRecord ℚ :=
  (canonicalRecord (sharedRecords first second ratio oneWay heats).1,
    canonicalRecord (sharedRecords first second ratio oneWay heats).2)

/-- A record whose gases and temperature alone can differ. -/
def SameBut (record after : MixtureRecord ℚ) : Prop :=
  after = { record with gases := after.gases, temperature := after.temperature }

theorem SameBut.eq_of_not_differ (h : SameBut f f')
    (hsame : mixtureThermodynamicsDiffer f f' = false) : f' = f := by
  unfold mixtureThermodynamicsDiffer at hsame
  rw [Bool.or_eq_false_iff, Bool.not_eq_false', bne_eq_false_iff_eq, gasesEqual_iff] at hsame
  rw [h, ← hsame.1, ← hsame.2]

theorem SameBut.refl (record : MixtureRecord ℚ) : SameBut record record := rfl

theorem SameBut.trans {g : MixtureRecord ℚ} (h : SameBut f f') (h' : SameBut f' g) :
    SameBut f g := by
  unfold SameBut at h h' ⊢
  rw [h', h]

theorem sameBut_mergeRecord (receiver giver : MixtureRecord ℚ) (heats : List ℚ) :
    SameBut receiver (mergeRecord receiver giver heats) := by
  unfold mergeRecord
  split
  · exact .refl receiver
  · rfl

theorem sameBut_removeRatio (source destination : MixtureRecord ℚ) (ratio : ℚ) :
    SameBut source (removeRatioIntoRecord source destination ratio).1 := by
  unfold removeRatioIntoRecord
  split
  · exact .refl source
  · dsimp only
    split
    · exact .refl source
    · rfl

theorem sameBut_canonicalRecord (record : MixtureRecord ℚ) :
    SameBut record (canonicalRecord record) := by
  unfold canonicalRecord
  split
  · exact .refl record
  · rfl

theorem sameBut_shared (heats : List ℚ) (ratio : ℚ) (oneWay : Bool) (f s : MixtureRecord ℚ) :
    SameBut f (shared heats ratio oneWay f s).1 ∧ SameBut s (shared heats ratio oneWay f s).2 := by
  cases oneWay with
  | true =>
    exact ⟨((sameBut_removeRatio ..).trans (sameBut_mergeRecord ..)).trans
      (sameBut_canonicalRecord _), sameBut_canonicalRecord s⟩
  | false =>
    exact ⟨((sameBut_removeRatio ..).trans (sameBut_mergeRecord ..)).trans
      (sameBut_canonicalRecord _),
      ((sameBut_removeRatio ..).trans (sameBut_mergeRecord ..)).trans (sameBut_canonicalRecord _)⟩

theorem leaves_shareRatio {ratio : ℚ} {oneWay : Bool} :
    Leaves w (shareRatio (D := ℚ) first second ratio oneWay) fun _ v =>
      ∃ f s, PairLeft w v first second f s (shared w.heats (max 0 (min ratio 1)) oneWay f s).1
        (shared w.heats (max 0 (min ratio 1)) oneWay f s).2 := by
  unfold shareRatio
  refine leaves_check_bind fun clamped hclamped => ?_
  obtain ⟨hne, rfl⟩ := requireRatio_eq_ok hclamped
  generalize max 0 (min ratio 1) = clamped
  refine leaves_check_bind fun registry hregistry => ?_
  rw [requireGases_eq_ok hregistry]
  refine leaves_check_bind fun f hfirst => leaves_check_bind fun s hsecond => ?_
  refine leaves_check_bind fun _ _ => leaves_check_bind fun _ _ => ?_
  obtain ⟨hf, hs⟩ := sameBut_shared w.heats clamped oneWay f s
  refine leaves_ite (fun _ => leaves_bind_pure ?_) fun hsame => ?_
  · exact leaves_mono (leaves_writeRevised hfirst hsecond hf.eq_of_not_differ hs.eq_of_not_differ)
      fun _ v hleft => ⟨f, s, hleft⟩
  · rw [Bool.or_eq_true, not_or, Bool.not_eq_true, Bool.not_eq_true] at hsame
    refine leaves_pure ⟨f, s, ?_⟩
    rw [hf.eq_of_not_differ hsame.1, hs.eq_of_not_differ hsame.2]
    exact pairLeft_refl hfirst hsecond

end DogmosWorld

/-! ## The commands -/

/-- The commands that move gas between two mixtures. -/
inductive PairCommand
  | merge
  | removeRatioInto (ratio : ℚ)
  | removeAmountInto (amount : ℚ)
  | transferGases (ratio : ℚ) (gases : List GasId)
  | transferByFlags (flags : UInt32) (amount : ℚ)
  | transferRatio (ratio : ℚ)
  | transferAmount (amount : ℚ)
  | shareRatio (ratio : ℚ) (oneWay : Bool)

namespace PairCommand

/-- The command on two mixtures. -/
def command (first second : MixtureHandle) : PairCommand → Command ℚ
  | merge => .merge first second
  | removeRatioInto ratio => .removeRatioInto first second ratio
  | removeAmountInto amount => .removeAmountInto first second amount
  | transferGases ratio gases => .transferGases first second ratio gases
  | transferByFlags flags amount => .transferByFlags first second flags amount
  | transferRatio ratio => .transferRatio first second ratio
  | transferAmount amount => .transferAmount first second amount
  | shareRatio ratio oneWay => .shareRatio first second ratio oneWay

open DogmosWorld in
/-- The records a command computes from the two it finds. -/
def outcome (w : DogmosWorld ℚ) (f s : MixtureRecord ℚ) :
    PairCommand → MixtureRecord ℚ × MixtureRecord ℚ
  | merge => (merged w.heats f s, s)
  | removeRatioInto ratio => ratioRemoved true (max 0 (min ratio 1)) f s
  | removeAmountInto amount => ratioRemoved false (max 0 (min (ratioOfAmount f amount) 1)) f s
  | transferGases ratio gases =>
    gasesTransferred w.heats (max 0 (min ratio 1)) (gases.map GasId.index) f s
  | transferByFlags flags amount => flagsTransferred w.heats (w.flagged flags) amount f s
  | transferRatio ratio => ratioTransferred w.heats (max 0 (min ratio 1)) f s
  | transferAmount amount => ratioTransferred w.heats (max 0 (min (ratioOfAmount f amount) 1)) f s
  | shareRatio ratio oneWay => shared w.heats (max 0 (min ratio 1)) oneWay f s

end PairCommand

namespace DogmosWorld

variable {w v : DogmosWorld ℚ} {first second : MixtureHandle} {f s : MixtureRecord ℚ}

/-- A pair of records found through the same handles is the same pair. -/
theorem PairLeft.at {outcome : MixtureRecord ℚ → MixtureRecord ℚ → MixtureRecord ℚ × MixtureRecord ℚ}
    (hfirst : w.requireHandle first = .ok f) (hsecond : w.requireHandle second = .ok s)
    (h : ∃ f s, PairLeft w v first second f s (outcome f s).1 (outcome f s).2) :
    PairLeft w v first second f s (outcome f s).1 (outcome f s).2 := by
  obtain ⟨f₁, s₁, firstRevision, secondRevision, heffect⟩ := h
  have hf := heffect.foundFirst
  have hs := heffect.foundSecond
  rw [hfirst] at hf
  rw [hsecond] at hs
  cases hf
  cases hs
  exact ⟨firstRevision, secondRevision, heffect⟩

/-- A command on two mixtures that succeeds leaves the records it computes. -/
theorem leaves_pairCommand (op : PairCommand) (clock : Nat → ℚ)
    (hfirst : w.requireHandle first = .ok f) (hsecond : w.requireHandle second = .ok s) :
    Leaves w (applyCommand (D := ℚ) (op.command first second) clock) fun _ v =>
      PairLeft w v first second f s (op.outcome w f s).1 (op.outcome w f s).2 := by
  cases op with
  | merge =>
    refine leaves_check_bind fun _ hread => ?_
    cases hread
    refine leaves_bind leaves_mergeMixtures fun _ v hleft => ?_
    refine leaves_check_bind fun _ _ => leaves_pure ?_
    exact @PairLeft.at w v first second f s (fun f s => (merged w.heats f s, s)) hfirst hsecond hleft
  | removeRatioInto ratio =>
    refine leaves_check_bind fun _ hread => ?_
    cases hread
    refine leaves_bind_pure (leaves_mono leaves_removeRatioInto fun _ v hleft => ?_)
    exact PairLeft.at hfirst hsecond hleft
  | removeAmountInto amount =>
    refine leaves_check_bind fun _ hread => ?_
    cases hread
    refine leaves_check_bind fun ratio hratio => ?_
    obtain ⟨found, hfound, rfl⟩ := amountRatio_eq_ok hratio
    rw [hfirst] at hfound
    cases hfound
    refine leaves_bind_pure (leaves_mono leaves_removeRatioInto fun _ v hleft => ?_)
    exact PairLeft.at hfirst hsecond hleft
  | transferGases ratio gases =>
    refine leaves_check_bind fun _ hread => ?_
    cases hread
    refine leaves_bind_pure (leaves_mono leaves_transferGases fun _ v hleft => ?_)
    exact PairLeft.at hfirst hsecond hleft
  | transferByFlags flags amount =>
    refine leaves_check_bind fun _ hread => ?_
    cases hread
    exact leaves_transferByFlags hfirst hsecond
  | transferRatio ratio =>
    refine leaves_check_bind fun _ hread => ?_
    cases hread
    refine leaves_bind_pure (leaves_mono leaves_transferRatioTo fun _ v hleft => ?_)
    exact PairLeft.at hfirst hsecond hleft
  | transferAmount amount =>
    refine leaves_check_bind fun _ hread => ?_
    cases hread
    refine leaves_check_bind fun ratio hratio => ?_
    obtain ⟨found, hfound, rfl⟩ := amountRatio_eq_ok hratio
    rw [hfirst] at hfound
    cases hfound
    refine leaves_bind_pure (leaves_mono leaves_transferRatioTo fun _ v hleft => ?_)
    exact PairLeft.at hfirst hsecond hleft
  | shareRatio ratio oneWay =>
    refine leaves_check_bind fun _ hread => ?_
    cases hread
    refine leaves_bind_pure (leaves_mono leaves_shareRatio fun _ v hleft => ?_)
    exact PairLeft.at hfirst hsecond hleft

end DogmosWorld

end Dogmos
