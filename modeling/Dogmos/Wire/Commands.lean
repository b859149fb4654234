import Dogmos.Wire.Format

/-!
# Mixture commands on the wire

One record carries all commands: a kind, flags, two handles, three numbers, a gas and
an auxiliary word.  What a command does not use is blank, and a decoder sees to that.

* `CommandFields` — the record; `MixtureCommandRequest.fields` fills it and
  `CommandFields.request` reads it, one case for each kind.
* `decode_fields` — a decoder on a string that is split into the fields.
* `mixture_commands_canonical` — requests and responses are their bytes.
-/

namespace Dogmos

open Bytes

def mixtureCommandRequestLen : Nat := 56

def mixtureCommandResponseLen : Nat := 24

/-- `MixtureCommandRequest`. -/
inductive MixtureCommandRequest where
  | setMoles (handle : WireHandle) (gasId : UInt16) (amount : ScalarValue)
  | adjustMoles (handle : WireHandle) (gasId : UInt16) (delta : ScalarValue)
  | adjustMolesTemperature (handle : WireHandle) (gasId : UInt16)
      (amount temperature : ScalarValue)
  | getMoles (handle : WireHandle) (gasId : UInt16)
  | temperature (handle : WireHandle)
  | volume (handle : WireHandle)
  | heatCapacity (handle : WireHandle)
  | partialHeatCapacity (handle : WireHandle) (gasId : UInt16)
  | totalMoles (handle : WireHandle)
  | pressure (handle : WireHandle)
  | thermalEnergy (handle : WireHandle)
  | getMolesByFlags (handle : WireHandle) (flags : UInt32)
  | burnability (handle : WireHandle) (temperature : Option ScalarValue)
  | setTemperature (handle : WireHandle) (temperature : ScalarValue)
  | setVolume (handle : WireHandle) (volume : ScalarValue)
  | setMinimumHeatCapacity (handle : WireHandle) (amount : ScalarValue)
  | clear (handle : WireHandle)
  | add (handle : WireHandle) (amount : ScalarValue)
  | multiply (handle : WireHandle) (factor : ScalarValue)
  | copyFrom (receiver giver : WireHandle)
  | adjustHeat (handle : WireHandle) (heat : ScalarValue)
  | compare (left right : WireHandle)
  | equalizeWith (receiver total : WireHandle)
  | temperatureShare (first second : WireHandle) (conductionCoefficient : ScalarValue)
  | temperatureShareNonGas (handle : WireHandle)
      (conductionCoefficient sharerTemperature sharerHeatCapacity : ScalarValue)
  | markImmutable (handle : WireHandle)
  | isImmutable (handle : WireHandle)
  | merge (receiver giver : WireHandle)
  | removeRatioInto (source destination : WireHandle) (ratio : ScalarValue)
  | removeAmountInto (source destination : WireHandle) (amount : ScalarValue)
  | transferGases (source destination : WireHandle) (ratio : ScalarValue) (gasMask : UInt32)
  | transferAmount (source destination : WireHandle) (amount : ScalarValue)
  | transferRatio (source destination : WireHandle) (ratio : ScalarValue)
  | transferByFlags (source destination : WireHandle) (flags : UInt32) (amount : ScalarValue)
  | shareRatio (first second : WireHandle) (ratio : ScalarValue) (oneWay : Bool)
  | react (handle target : WireHandle) (reactionProfileThresholdMs : Option ScalarValue)
deriving DecidableEq

/-- The record of a command. -/
structure CommandFields where
  kind : UInt16
  flags : UInt16
  primary : WireHandle
  secondary : WireHandle
  s1 : ScalarValue
  s2 : ScalarValue
  s3 : ScalarValue
  gasId : UInt16
  aux : UInt32
deriving DecidableEq

/-- `u16::from` of a boolean. -/
def flagBit (b : Bool) : UInt16 := if b then 1 else 0

namespace MixtureCommandRequest

/-- The record that `MixtureCommandRequest::encode` writes. -/
def fields : MixtureCommandRequest → Except ProtocolError CommandFields
  | .setMoles handle gasId amount => pure ⟨1, 0, handle, .blank, amount, .zero, .zero, gasId, 0⟩
  | .adjustMoles handle gasId delta => pure ⟨2, 0, handle, .blank, delta, .zero, .zero, gasId, 0⟩
  | .adjustMolesTemperature handle gasId amount t =>
    pure ⟨3, 0, handle, .blank, amount, t, .zero, gasId, 0⟩
  | .getMoles handle gasId => pure ⟨4, 0, handle, .blank, .zero, .zero, .zero, gasId, 0⟩
  | .temperature handle => pure ⟨5, 0, handle, .blank, .zero, .zero, .zero, 0, 0⟩
  | .volume handle => pure ⟨6, 0, handle, .blank, .zero, .zero, .zero, 0, 0⟩
  | .heatCapacity handle => pure ⟨7, 0, handle, .blank, .zero, .zero, .zero, 0, 0⟩
  | .partialHeatCapacity handle gasId => pure ⟨8, 0, handle, .blank, .zero, .zero, .zero, gasId, 0⟩
  | .totalMoles handle => pure ⟨9, 0, handle, .blank, .zero, .zero, .zero, 0, 0⟩
  | .pressure handle => pure ⟨10, 0, handle, .blank, .zero, .zero, .zero, 0, 0⟩
  | .thermalEnergy handle => pure ⟨11, 0, handle, .blank, .zero, .zero, .zero, 0, 0⟩
  | .getMolesByFlags handle flags => pure ⟨12, 0, handle, .blank, .zero, .zero, .zero, 0, flags⟩
  | .burnability handle t =>
    pure ⟨13, flagBit t.isSome, handle, .blank, t.getD .zero, .zero, .zero, 0, 0⟩
  | .setTemperature handle t => pure ⟨14, 0, handle, .blank, t, .zero, .zero, 0, 0⟩
  | .setVolume handle v => pure ⟨15, 0, handle, .blank, v, .zero, .zero, 0, 0⟩
  | .setMinimumHeatCapacity handle amount =>
    pure ⟨16, 0, handle, .blank, amount, .zero, .zero, 0, 0⟩
  | .clear handle => pure ⟨17, 0, handle, .blank, .zero, .zero, .zero, 0, 0⟩
  | .add handle amount => pure ⟨18, 0, handle, .blank, amount, .zero, .zero, 0, 0⟩
  | .multiply handle factor => pure ⟨19, 0, handle, .blank, factor, .zero, .zero, 0, 0⟩
  | .copyFrom receiver giver => pure ⟨20, 0, receiver, giver, .zero, .zero, .zero, 0, 0⟩
  | .adjustHeat handle heat => pure ⟨21, 0, handle, .blank, heat, .zero, .zero, 0, 0⟩
  | .compare left right => pure ⟨22, 0, left, right, .zero, .zero, .zero, 0, 0⟩
  | .equalizeWith receiver total => pure ⟨23, 0, receiver, total, .zero, .zero, .zero, 0, 0⟩
  | .temperatureShare first second conductionCoefficient =>
    pure ⟨24, 0, first, second, conductionCoefficient, .zero, .zero, 0, 0⟩
  | .temperatureShareNonGas handle conductionCoefficient sharerTemperature sharerHeatCapacity =>
    pure ⟨25, 0, handle, .blank, conductionCoefficient, sharerTemperature, sharerHeatCapacity, 0, 0⟩
  | .markImmutable handle => pure ⟨26, 0, handle, .blank, .zero, .zero, .zero, 0, 0⟩
  | .isImmutable handle => pure ⟨27, 0, handle, .blank, .zero, .zero, .zero, 0, 0⟩
  | .merge receiver giver => pure ⟨28, 0, receiver, giver, .zero, .zero, .zero, 0, 0⟩
  | .removeRatioInto source destination ratio =>
    pure ⟨29, 0, source, destination, ratio, .zero, .zero, 0, 0⟩
  | .removeAmountInto source destination amount =>
    pure ⟨30, 0, source, destination, amount, .zero, .zero, 0, 0⟩
  | .transferGases source destination ratio gasMask =>
    pure ⟨31, 0, source, destination, ratio, .zero, .zero, 0, gasMask⟩
  | .transferAmount source destination amount =>
    pure ⟨32, 0, source, destination, amount, .zero, .zero, 0, 0⟩
  | .transferRatio source destination ratio =>
    pure ⟨33, 0, source, destination, ratio, .zero, .zero, 0, 0⟩
  | .transferByFlags source destination flags amount =>
    pure ⟨34, 0, source, destination, amount, .zero, .zero, 0, flags⟩
  | .shareRatio first second ratio oneWay =>
    pure ⟨35, flagBit oneWay, first, second, ratio, .zero, .zero, 0, 0⟩
  | .react handle target reactionProfileThresholdMs => do
    let threshold := reactionProfileThresholdMs.getD .zero
    failIf (threshold.val < 0.0) .invalidReactionProfileThreshold
    pure ⟨36, flagBit reactionProfileThresholdMs.isSome, handle, target, threshold, .zero, .zero,
      0, 0⟩

end MixtureCommandRequest

namespace CommandFields

/-- The bytes of a record. -/
def encode (fields : CommandFields) : Encoded := do
  let output := zeros mixtureCommandRequestLen
  let output := put output 0 (le16 fields.kind)
  let output := put output 2 (le16 fields.flags)
  let output := put output 4 fields.primary.encode
  let output := put output 12 fields.secondary.encode
  let output := put output 20 (← fields.s1.encode)
  let output := put output 28 (← fields.s2.encode)
  let output := put output 36 (← fields.s3.encode)
  let output := put output 44 (le16 fields.gasId)
  pure (put output 48 (le32 fields.aux))

/-- The command of a record whose unused fields are known to be blank. -/
def request (fields : CommandFields) : Except ProtocolError MixtureCommandRequest :=
  let ⟨kind, flags, primary, secondary, s1, s2, s3, gasId, aux⟩ := fields
  let flag : Bool := flags &&& 1 ≠ 0
  match kind.toNat with
  | 1 => .ok (.setMoles primary gasId s1)
  | 2 => .ok (.adjustMoles primary gasId s1)
  | 3 => .ok (.adjustMolesTemperature primary gasId s1 s2)
  | 4 => .ok (.getMoles primary gasId)
  | 5 => .ok (.temperature primary)
  | 6 => .ok (.volume primary)
  | 7 => .ok (.heatCapacity primary)
  | 8 => .ok (.partialHeatCapacity primary gasId)
  | 9 => .ok (.totalMoles primary)
  | 10 => .ok (.pressure primary)
  | 11 => .ok (.thermalEnergy primary)
  | 12 => .ok (.getMolesByFlags primary aux)
  | 13 => .ok (.burnability primary (if flag then some s1 else none))
  | 14 => .ok (.setTemperature primary s1)
  | 15 => .ok (.setVolume primary s1)
  | 16 => .ok (.setMinimumHeatCapacity primary s1)
  | 17 => .ok (.clear primary)
  | 18 => .ok (.add primary s1)
  | 19 => .ok (.multiply primary s1)
  | 20 => .ok (.copyFrom primary secondary)
  | 21 => .ok (.adjustHeat primary s1)
  | 22 => .ok (.compare primary secondary)
  | 23 => .ok (.equalizeWith primary secondary)
  | 24 => .ok (.temperatureShare primary secondary s1)
  | 25 => .ok (.temperatureShareNonGas primary s1 s2 s3)
  | 26 => .ok (.markImmutable primary)
  | 27 => .ok (.isImmutable primary)
  | 28 => .ok (.merge primary secondary)
  | 29 => .ok (.removeRatioInto primary secondary s1)
  | 30 => .ok (.removeAmountInto primary secondary s1)
  | 31 => .ok (.transferGases primary secondary s1 aux)
  | 32 => .ok (.transferAmount primary secondary s1)
  | 33 => .ok (.transferRatio primary secondary s1)
  | 34 => .ok (.transferByFlags primary secondary aux s1)
  | 35 => .ok (.shareRatio primary secondary s1 flag)
  | 36 =>
    if flag ∧ s1.val < 0.0 then .error .invalidReactionProfileThreshold
    else .ok (.react primary secondary (if flag then some s1 else none))
  | _ => .error (.unknownMixtureCommand kind)

end CommandFields

/-! ## Which fields a kind uses -/

section Uses

variable (kind flags : UInt16)

def allowedFlags : UInt16 := if kind = 13 ∨ kind = 35 ∨ kind = 36 then 1 else 0

def UsesSecondary : Prop := kind = 20 ∨ 22 ≤ kind ∧ kind ≤ 24 ∨ 28 ≤ kind ∧ kind ≤ 36

def UsesS1 : Prop :=
  (1 ≤ kind ∧ kind ≤ 3 ∨ 14 ≤ kind ∧ kind ≤ 16 ∨ 18 ≤ kind ∧ kind ≤ 19 ∨ kind = 21 ∨
    24 ≤ kind ∧ kind ≤ 25 ∨ 29 ≤ kind ∧ kind ≤ 35) ∨
  (kind = 13 ∨ kind = 36) ∧ flags &&& 1 ≠ 0

def UsesS2 : Prop := kind = 3 ∨ kind = 25

def UsesS3 : Prop := kind = 25

def UsesGasId : Prop := 1 ≤ kind ∧ kind ≤ 4 ∨ kind = 8

def UsesAux : Prop := kind = 12 ∨ kind = 31 ∨ kind = 34

instance : Decidable (UsesSecondary kind) := by unfold UsesSecondary; infer_instance

instance : Decidable (UsesS1 kind flags) := by unfold UsesS1; infer_instance

instance : Decidable (UsesS2 kind) := by unfold UsesS2; infer_instance

instance : Decidable (UsesS3 kind) := by unfold UsesS3; infer_instance

instance : Decidable (UsesGasId kind) := by unfold UsesGasId; infer_instance

instance : Decidable (UsesAux kind) := by unfold UsesAux; infer_instance

end Uses

/-- `MixtureCommandRequest::encode`. -/
def MixtureCommandRequest.encode (request : MixtureCommandRequest) : Encoded := do
  (← request.fields).encode

/-- `MixtureCommandRequest::decode`. -/
def MixtureCommandRequest.decode (input : Bytes) : Decoded MixtureCommandRequest := do
  requireExactLen input mixtureCommandRequestLen
  let kind ← readU16 input 0
  let flags ← readU16 input 2
  rejectIf (¬(1 ≤ kind ∧ kind ≤ 36)) (.unknownMixtureCommand kind)
  let reserved ← readU16 input 46
  let reserved' ← readU32 input 52
  rejectIf (reserved ≠ 0 ∨ reserved' ≠ 0) .reservedMixtureCommandField
  rejectIf (flags &&& ~~~allowedFlags kind ≠ 0) (.unknownMixtureCommandFlags kind flags)
  let secondaryBytes ← slice input 12 20
  let s1Bytes ← slice input 20 28
  let s2Bytes ← slice input 28 36
  let s3Bytes ← slice input 36 44
  let primary ← WireHandle.decode (← slice input 4 12)
  let secondary ← WireHandle.decode secondaryBytes
  let s1 ← ScalarValue.decode s1Bytes
  let s2 ← ScalarValue.decode s2Bytes
  let s3 ← ScalarValue.decode s3Bytes
  let gasId ← readU16 input 44
  let aux ← readU32 input 48
  rejectIf ((¬UsesSecondary kind ∧ ¬isBlank secondaryBytes) ∨
    (¬UsesS1 kind flags ∧ ¬isBlank s1Bytes) ∨ (¬UsesS2 kind ∧ ¬isBlank s2Bytes) ∨
    (¬UsesS3 kind ∧ ¬isBlank s3Bytes) ∨ (¬UsesGasId kind ∧ gasId ≠ 0) ∨
    (¬UsesAux kind ∧ aux ≠ 0)) .reservedMixtureCommandField
  lift (CommandFields.request ⟨kind, flags, primary, secondary, s1, s2, s3, gasId, aux⟩)

/-- `MixtureCommandResponse`. -/
inductive MixtureCommandResponse where
  | applied (updated : UInt32)
  | scalar (value : ScalarValue)
  | scalars (first second : ScalarValue)
  | boolean (value : Bool)
  | reactionProgress (flags workItems : UInt32) (pending : Bool) (transactionId : UInt64)
deriving DecidableEq

namespace MixtureCommandResponse

/-- The kind, the value and the payload that `MixtureCommandResponse::encode` writes. -/
def parts : MixtureCommandResponse → Except ProtocolError (UInt32 × UInt32 × Bytes)
  | .applied updated => pure (1, updated, zeros 16)
  | .scalar value => do pure (2, 0, put (zeros 16) 0 (← value.encode))
  | .scalars first second => do
    pure (3, 0, put (put (zeros 16) 0 (← first.encode)) 8 (← second.encode))
  | .boolean value => pure (4, boolWord value, zeros 16)
  | .reactionProgress flags workItems pending transactionId => do
    failIf (flags &&& ~~~reactionFlagMask ≠ 0) (.invalidReactionFlags flags)
    let payload := put (zeros 16) 0 (le32 workItems)
    let payload := put payload 4 (le32 (boolWord pending))
    pure (5, flags, put payload 8 (le64 transactionId))

/-- `MixtureCommandResponse::encode`. -/
def encode (response : MixtureCommandResponse) : Encoded := do
  let (kind, value, payload) ← response.parts
  let output := put (zeros mixtureCommandResponseLen) 0 (le32 kind)
  pure (put (put output 4 (le32 value)) 8 payload)

/-- `MixtureCommandResponse::decode`. -/
def decode (input : Bytes) : Decoded MixtureCommandResponse := do
  requireExactLen input mixtureCommandResponseLen
  let kind ← readU32 input 0
  let value ← readU32 input 4
  let payload ← slice input 8 24
  let rear ← slice input 16 24
  if kind = 1 ∧ isBlank payload then pure (.applied value)
  else if kind = 2 ∧ value = 0 ∧ isBlank rear then
    pure (.scalar (← ScalarValue.decode (← slice input 8 16)))
  else if kind = 3 ∧ value = 0 then
    pure (.scalars (← ScalarValue.decode (← slice input 8 16)) (← ScalarValue.decode rear))
  else if kind = 4 ∧ isBlank payload then pure (.boolean (← lift (decodeBoolean value)))
  else if kind = 5 then
    rejectIf (value &&& ~~~reactionFlagMask ≠ 0) (.invalidReactionFlags value)
    pure (.reactionProgress value (← readU32 input 8)
      (← lift (decodeBoolean (← readU32 input 12))) (← readU64 input 16))
  else reject (.unknownMixtureCommandResponse kind)

end MixtureCommandResponse

/-! ## The record of a command -/

theorem flags_of_allowed {flags : UInt16} (h : flags &&& ~~~1 = 0) : flags = 0 ∨ flags = 1 := by
  have hlow : flags = flags &&& 1 := by
    have hsplit : flags &&& (1 ||| ~~~1) = flags &&& 1 ||| flags &&& ~~~1 :=
      UInt16.toBitVec_inj.1 BitVec.and_or_distrib_left
    rwa [UInt16.or_not_self, UInt16.and_neg_one, h, UInt16.or_zero] at hsplit
  have hbit : (flags &&& 1).toNat = flags.toNat % 2 := by
    rw [UInt16.toNat_and]
    exact Nat.and_one_is_mod _
  rw [← hlow] at hbit
  rcases Nat.mod_two_eq_zero_or_one flags.toNat with hmod | hmod
  · exact .inl (UInt16.toNat_inj.1 (hbit.trans hmod))
  · exact .inr (UInt16.toNat_inj.1 (hbit.trans hmod))

namespace CommandFields

/-- A record of a known kind whose unused fields are blank. -/
structure Canonical (fields : CommandFields) : Prop where
  kind : 1 ≤ fields.kind ∧ fields.kind ≤ 36
  flags : fields.flags &&& ~~~allowedFlags fields.kind = 0
  secondary : ¬UsesSecondary fields.kind → fields.secondary = .blank
  s1 : ¬UsesS1 fields.kind fields.flags → fields.s1 = .zero
  s2 : ¬UsesS2 fields.kind → fields.s2 = .zero
  s3 : ¬UsesS3 fields.kind → fields.s3 = .zero
  gasId : ¬UsesGasId fields.kind → fields.gasId = 0
  aux : ¬UsesAux fields.kind → fields.aux = 0

theorem canonical_iff {fields : CommandFields} :
    fields.Canonical ↔ (1 ≤ fields.kind ∧ fields.kind ≤ 36) ∧
      fields.flags &&& ~~~allowedFlags fields.kind = 0 ∧
      (¬UsesSecondary fields.kind → fields.secondary = .blank) ∧
      (¬UsesS1 fields.kind fields.flags → fields.s1 = .zero) ∧
      (¬UsesS2 fields.kind → fields.s2 = .zero) ∧ (¬UsesS3 fields.kind → fields.s3 = .zero) ∧
      (¬UsesGasId fields.kind → fields.gasId = 0) ∧ (¬UsesAux fields.kind → fields.aux = 0) :=
  ⟨fun ⟨h₁, h₂, h₃, h₄, h₅, h₆, h₇, h₈⟩ => ⟨h₁, h₂, h₃, h₄, h₅, h₆, h₇, h₈⟩,
    fun ⟨h₁, h₂, h₃, h₄, h₅, h₆, h₇, h₈⟩ => ⟨h₁, h₂, h₃, h₄, h₅, h₆, h₇, h₈⟩⟩

theorem zero_not_negative : ¬(ScalarValue.zero.val < 0.0) := by decide +kernel

/-- What fills a record reads it again. -/
theorem request_fields {request : MixtureCommandRequest} {fields : CommandFields}
    (h : request.fields = .ok fields) : fields.Canonical ∧ fields.request = .ok request := by
  cases request
  case burnability handle t =>
    cases h
    cases t <;> simp [canonical_iff, allowedFlags, UsesSecondary, UsesS1, UsesS2, UsesS3, UsesGasId,
      UsesAux, CommandFields.request, flagBit]
  case shareRatio first second ratio oneWay =>
    cases h
    cases oneWay <;> simp [canonical_iff, allowedFlags, UsesSecondary, UsesS1, UsesS2, UsesS3,
      UsesGasId, UsesAux, CommandFields.request, flagBit]
  case react handle target threshold =>
    simp only [MixtureCommandRequest.fields, bind_eq_ok, failIf_eq_ok] at h
    obtain ⟨_, hthreshold, h⟩ := h
    cases h
    cases threshold with
    | none => simp [canonical_iff, allowedFlags, UsesSecondary, UsesS1, UsesS2, UsesS3, UsesGasId,
        UsesAux, CommandFields.request, flagBit]
    | some t =>
      rw [Option.getD_some] at hthreshold
      simp [canonical_iff, allowedFlags, UsesSecondary, UsesS1, UsesS2, UsesS3, UsesGasId, UsesAux,
        CommandFields.request, flagBit, hthreshold]
  all_goals
    cases h
    simp [canonical_iff, allowedFlags, UsesSecondary, UsesS1, UsesS2, UsesS3, UsesGasId, UsesAux,
      CommandFields.request]

theorem fields_request {request : MixtureCommandRequest} {fields : CommandFields}
    (hcanonical : fields.Canonical) (h : fields.request = .ok request) :
    request.fields = .ok fields := by
  obtain ⟨kind, flags, primary, secondary, s1, s2, s3, gasId, aux⟩ := fields
  rw [canonical_iff] at hcanonical
  simp only at hcanonical
  simp only [CommandFields.request] at h
  have hkind : kind = UInt16.ofNat kind.toNat := UInt16.ofNat_toNat.symm
  split at h
  case h_13 heq =>
    rw [heq] at hkind
    subst hkind
    simp only [allowedFlags, UsesSecondary, UsesS1, UsesS2, UsesS3, UsesGasId, UsesAux] at hcanonical
    obtain ⟨-, hflags, hsecondary, hs1, hs2, hs3, hgasId, haux⟩ := hcanonical
    cases h
    rcases flags_of_allowed (by simpa using hflags) with rfl | rfl
    · simp_all [MixtureCommandRequest.fields, flagBit]
    · simp_all [MixtureCommandRequest.fields, flagBit]
  case h_35 heq =>
    rw [heq] at hkind
    subst hkind
    simp only [allowedFlags, UsesSecondary, UsesS1, UsesS2, UsesS3, UsesGasId, UsesAux] at hcanonical
    obtain ⟨-, hflags, -, -, hs2, hs3, hgasId, haux⟩ := hcanonical
    cases h
    rcases flags_of_allowed (by simpa using hflags) with rfl | rfl
    · simp_all [MixtureCommandRequest.fields, flagBit]
    · simp_all [MixtureCommandRequest.fields, flagBit]
  case h_36 heq =>
    rw [heq] at hkind
    subst hkind
    simp only [allowedFlags, UsesSecondary, UsesS1, UsesS2, UsesS3, UsesGasId, UsesAux] at hcanonical
    obtain ⟨-, hflags, -, hs1, hs2, hs3, hgasId, haux⟩ := hcanonical
    split at h
    · cases h
    rename_i hthreshold
    cases h
    rcases flags_of_allowed (by simpa using hflags) with rfl | rfl
    · simp_all [MixtureCommandRequest.fields, flagBit, zero_not_negative, failIf]
    · simp_all [MixtureCommandRequest.fields, flagBit, failIf]
  case h_37 => cases h
  all_goals
    rename_i heq
    rw [heq] at hkind
    subst hkind
    simp [allowedFlags, UsesSecondary, UsesS1, UsesS2, UsesS3, UsesGasId, UsesAux] at hcanonical
    cases h
    simp [MixtureCommandRequest.fields, hcanonical]

/-- A number that every field carries. -/
def Finite (fields : CommandFields) : Prop := fields.s1.Finite ∧ fields.s2.Finite ∧ fields.s3.Finite

/-- A string split into the fields of a record. -/
def layout (kind flags : UInt16) (primary secondary : WireHandle) (p₁ p₂ p₃ : Bytes)
    (gasId reserved : UInt16) (aux reserved' : UInt32) : Bytes :=
  le16 kind ++ (le16 flags ++ (primary.encode ++ (secondary.encode ++ (p₁ ++ (p₂ ++ (p₃ ++
    (le16 gasId ++ (le16 reserved ++ (le32 aux ++ le32 reserved')))))))))

/-- The bytes of a record. -/
def bytes (fields : CommandFields) : Bytes :=
  layout fields.kind fields.flags fields.primary fields.secondary fields.s1.bytes fields.s2.bytes
    fields.s3.bytes fields.gasId 0 fields.aux 0

theorem encode_eq_ok {fields : CommandFields} {bs : Bytes} :
    fields.encode = .ok bs ↔ fields.Finite ∧ bs = fields.bytes := by
  unfold encode Finite bytes layout mixtureCommandRequestLen
  simp only [bind_eq_ok, ScalarValue.encode_eq_ok, pure_eq, Except.ok.injEq]
  constructor
  · rintro ⟨_, ⟨h₁, rfl⟩, _, ⟨h₂, rfl⟩, _, ⟨h₃, rfl⟩, rfl⟩
    refine ⟨⟨h₁, h₂, h₃⟩, ?_⟩
    simp [put_append, put_zeros, put_zeros_gap, le16_zero, le32_zero]
  · rintro ⟨⟨h₁, h₂, h₃⟩, rfl⟩
    refine ⟨_, ⟨h₁, rfl⟩, _, ⟨h₂, rfl⟩, _, ⟨h₃, rfl⟩, ?_⟩
    simp [put_append, put_zeros, put_zeros_gap, le16_zero, le32_zero]

end CommandFields

/-- Every string of the right length is split into fields. -/
theorem exists_layout {bs : Bytes} (h : bs.length = mixtureCommandRequestLen) :
    ∃ (kind flags : UInt16) (primary secondary : WireHandle) (p₁ p₂ p₃ : Bytes)
      (gasId reserved : UInt16) (aux reserved' : UInt32),
      bs = CommandFields.layout kind flags primary secondary p₁ p₂ p₃ gasId reserved aux reserved' ∧
        p₁.length = 8 ∧ p₂.length = 8 ∧ p₃.length = 8 := by
  unfold mixtureCommandRequestLen at h
  obtain ⟨kind, bs, rfl, h₁⟩ := exists_le16_append (show 2 ≤ bs.length by omega)
  obtain ⟨flags, bs, rfl, h₂⟩ := exists_le16_append (show 2 ≤ bs.length by omega)
  obtain ⟨primary, bs, rfl, h₃⟩ := exists_handle_append (show 8 ≤ bs.length by omega)
  obtain ⟨secondary, bs, rfl, h₄⟩ := exists_handle_append (show 8 ≤ bs.length by omega)
  obtain ⟨p₁, bs, rfl, hp₁, h₅⟩ := exists_append (show 8 ≤ bs.length by omega)
  obtain ⟨p₂, bs, rfl, hp₂, h₆⟩ := exists_append (show 8 ≤ bs.length by omega)
  obtain ⟨p₃, bs, rfl, hp₃, h₇⟩ := exists_append (show 8 ≤ bs.length by omega)
  obtain ⟨gasId, bs, rfl, h₈⟩ := exists_le16_append (show 2 ≤ bs.length by omega)
  obtain ⟨reserved, bs, rfl, h₉⟩ := exists_le16_append (show 2 ≤ bs.length by omega)
  obtain ⟨aux, bs, rfl, h₁₀⟩ := exists_le32_append (show 4 ≤ bs.length by omega)
  obtain ⟨reserved', bs, rfl, h₁₁⟩ := exists_le32_append (show 4 ≤ bs.length by omega)
  obtain rfl : bs = [] := List.eq_nil_of_length_eq_zero (by omega)
  exact ⟨kind, flags, primary, secondary, p₁, p₂, p₃, gasId, reserved, aux, reserved',
    by simp [CommandFields.layout], hp₁, hp₂, hp₃⟩

theorem decode_layout {kind flags : UInt16} {primary secondary : WireHandle} {p₁ p₂ p₃ : Bytes}
    {gasId reserved : UInt16} {aux reserved' : UInt32} {request : MixtureCommandRequest}
    (h₁ : p₁.length = 8) (h₂ : p₂.length = 8) (h₃ : p₃.length = 8) :
    MixtureCommandRequest.decode (CommandFields.layout kind flags primary secondary p₁ p₂ p₃ gasId
        reserved aux reserved') = .ok request ↔
      ∃ s₁ s₂ s₃ : ScalarValue, (s₁.Finite ∧ p₁ = s₁.bytes) ∧ (s₂.Finite ∧ p₂ = s₂.bytes) ∧
        (s₃.Finite ∧ p₃ = s₃.bytes) ∧ reserved = 0 ∧ reserved' = 0 ∧
        CommandFields.Canonical ⟨kind, flags, primary, secondary, s₁, s₂, s₃, gasId, aux⟩ ∧
        CommandFields.request ⟨kind, flags, primary, secondary, s₁, s₂, s₃, gasId, aux⟩ =
          .ok request := by
  have hlength : (CommandFields.layout kind flags primary secondary p₁ p₂ p₃ gasId
      reserved aux reserved').length = 56 := by
    simp [CommandFields.layout, h₁, h₂, h₃]
  unfold MixtureCommandRequest.decode requireExactLen mixtureCommandRequestLen
  rw [rejectIf_neg (by rw [hlength]; decide)]
  unfold CommandFields.layout
  simp only [bind_ok, readU16_block, readU16_skip, readU32_skip, slice_skip, slice_block,
    length_le16, length_le32, length_encode_handle, h₁, h₂, h₃, readU32_all, readU32_block,
    Nat.reduceSub, Nat.reduceLeDiff, WireHandle.decode_encode, bind_eq_ok, rejectIf_eq_ok,
    ScalarValue.decode_eq_ok, lift_eq_ok, not_not, isBlank_encode_handle, decide_eq_true_eq]
  constructor
  · rintro ⟨_, hkind, _, hreserved, _, hflags, s₁, hs₁, s₂, hs₂, s₃, hs₃, _, hunused, hrequest⟩
    simp only [hs₁.2, hs₂.2, hs₃.2, ScalarValue.isBlank_bytes hs₁.1, ScalarValue.isBlank_bytes hs₂.1,
      ScalarValue.isBlank_bytes hs₃.1, decide_eq_true_eq, not_or, not_and, not_not] at hunused
    simp only [not_or, not_not] at hreserved
    exact ⟨s₁, s₂, s₃, hs₁, hs₂, hs₃, hreserved.1, hreserved.2,
      CommandFields.canonical_iff.2 ⟨hkind, hflags, hunused⟩, hrequest⟩
  · rintro ⟨s₁, s₂, s₃, hs₁, hs₂, hs₃, rfl, rfl, hcanonical, hrequest⟩
    obtain ⟨hkind, hflags, hunused⟩ := CommandFields.canonical_iff.1 hcanonical
    refine ⟨(), hkind, (), by simp, (), hflags, s₁, hs₁, s₂, hs₂, s₃, hs₃, (), ?_, hrequest⟩
    simpa only [hs₁.2, hs₂.2, hs₃.2, ScalarValue.isBlank_bytes hs₁.1,
      ScalarValue.isBlank_bytes hs₂.1, ScalarValue.isBlank_bytes hs₃.1, decide_eq_true_eq, not_or,
      not_and, not_not] using hunused

/-- A command is its bytes. -/
theorem mixtureCommandRequest_codec :
    Codec MixtureCommandRequest.encode MixtureCommandRequest.decode where
  decode_encode := by
    intro request bs h
    obtain ⟨fields, hfields, h⟩ := bind_eq_ok.1 h
    obtain ⟨⟨hs₁, hs₂, hs₃⟩, rfl⟩ := CommandFields.encode_eq_ok.1 h
    obtain ⟨hcanonical, hrequest⟩ := CommandFields.request_fields hfields
    exact (decode_layout (length_bytes _) (length_bytes _) (length_bytes _)).2
      ⟨_, _, _, ⟨hs₁, rfl⟩, ⟨hs₂, rfl⟩, ⟨hs₃, rfl⟩, rfl, rfl, hcanonical, hrequest⟩
  encode_decode := by
    intro request bs h
    obtain ⟨_, hlength, -⟩ := bind_eq_ok.1 h
    obtain ⟨kind, flags, primary, secondary, p₁, p₂, p₃, gasId, reserved, aux, reserved', rfl, h₁, h₂,
      h₃⟩ := exists_layout (requireExactLen_eq_ok.1 hlength)
    obtain ⟨s₁, s₂, s₃, ⟨hs₁, rfl⟩, ⟨hs₂, rfl⟩, ⟨hs₃, rfl⟩, rfl, rfl, hcanonical, hrequest⟩ :=
      (decode_layout h₁ h₂ h₃).1 h
    have hfields := CommandFields.fields_request hcanonical hrequest
    exact bind_eq_ok.2 ⟨_, hfields, CommandFields.encode_eq_ok.2 ⟨⟨hs₁, hs₂, hs₃⟩, rfl⟩⟩

/-! ## Responses -/

namespace MixtureCommandResponse

/-- A response on a string that is split into a kind, a value and two halves of a payload. -/
theorem decode_halves {kind value : UInt32} {p q : Bytes} (hp : p.length = 8)
    (hq : q.length = 8) :
    decode (le32 kind ++ (le32 value ++ (p ++ q))) =
      if kind = 1 ∧ isBlank p ∧ isBlank q then pure (.applied value)
      else if kind = 2 ∧ value = 0 ∧ isBlank q then do pure (.scalar (← ScalarValue.decode p))
      else if kind = 3 ∧ value = 0 then do
        pure (.scalars (← ScalarValue.decode p) (← ScalarValue.decode q))
      else if kind = 4 ∧ isBlank p ∧ isBlank q then do
        pure (.boolean (← lift (decodeBoolean value)))
      else if kind = 5 then do
        rejectIf (value &&& ~~~reactionFlagMask ≠ 0) (.invalidReactionFlags value)
        pure (.reactionProgress value (← readU32 p 0)
          (← lift (decodeBoolean (← readU32 p 4))) (← readU64 q 0))
      else reject (.unknownMixtureCommandResponse kind) := by
  unfold decode requireExactLen mixtureCommandResponseLen
  rw [rejectIf_neg (by simp [hp, hq])]
  have hpayload : (p ++ q).length = 16 := by simp [hp, hq]
  have hw : readU32 (ε := ProtocolError) (p ++ q) 0 = readU32 p 0 := readU32_front q (by omega)
  have hb : readU32 (ε := ProtocolError) (p ++ q) 4 = readU32 p 4 := readU32_front q (by omega)
  simp only [bind_ok, readU32_block, readU32_skip, readU64_skip, slice_skip, slice_block, slice_all,
    length_le32, hp, hq, hpayload, hw, hb, Nat.reduceSub, Nat.reduceLeDiff, isBlank_append,
    Bool.and_eq_true]

/-- The bytes of a response. -/
def bytes : MixtureCommandResponse → Bytes
  | .applied updated => le32 1 ++ (le32 updated ++ (zeros 8 ++ zeros 8))
  | .scalar value => le32 2 ++ (le32 0 ++ (value.bytes ++ zeros 8))
  | .scalars first second => le32 3 ++ (le32 0 ++ (first.bytes ++ second.bytes))
  | .boolean value => le32 4 ++ (le32 (boolWord value) ++ (zeros 8 ++ zeros 8))
  | .reactionProgress flags workItems pending transactionId =>
    le32 5 ++ (le32 flags ++ ((le32 workItems ++ le32 (boolWord pending)) ++ le64 transactionId))

/-- A response that the wire carries. -/
def Encodable : MixtureCommandResponse → Prop
  | .scalar value => value.Finite
  | .scalars first second => first.Finite ∧ second.Finite
  | .reactionProgress flags _ _ _ => flags &&& ~~~reactionFlagMask = 0
  | _ => True

theorem put_parts {kind value : UInt32} {payload : Bytes} (h : payload.length = 16) :
    put (put (put (zeros mixtureCommandResponseLen) 0 (le32 kind)) 4 (le32 value)) 8 payload =
      le32 kind ++ (le32 value ++ payload) := by
  simp [put_append, put_zeros, mixtureCommandResponseLen, h]

theorem zeros_halves : zeros 16 = zeros 8 ++ zeros 8 := rfl

theorem encode_eq_ok {response : MixtureCommandResponse} {bs : Bytes} :
    response.encode = .ok bs ↔ response.Encodable ∧ bs = response.bytes := by
  cases response with
  | applied updated =>
    simp only [encode, parts, pure_eq, bind_ok, put_parts (length_zeros 16), Except.ok.injEq,
      Encodable, bytes, ← zeros_halves, true_and, eq_comm]
  | scalar value =>
    have hpayload : put (zeros 16) 0 value.bytes = value.bytes ++ zeros 8 := by
      simp [put_zeros]
    simp only [encode, parts, bind_eq_ok, ScalarValue.encode_eq_ok, pure_eq, Except.ok.injEq]
    constructor
    · rintro ⟨_, ⟨_, ⟨hvalue, rfl⟩, rfl⟩, rfl⟩
      exact ⟨hvalue, by rw [hpayload, put_parts (by simp)]; rfl⟩
    · rintro ⟨hvalue, rfl⟩
      exact ⟨_, ⟨_, ⟨hvalue, rfl⟩, rfl⟩, by rw [hpayload, put_parts (by simp)]; rfl⟩
  | scalars first second =>
    have hpayload : put (put (zeros 16) 0 first.bytes) 8 second.bytes =
        first.bytes ++ second.bytes := by
      simp [put_append, put_zeros]
    simp only [encode, parts, bind_eq_ok, ScalarValue.encode_eq_ok, pure_eq, Except.ok.injEq]
    constructor
    · rintro ⟨_, ⟨_, ⟨hfirst, rfl⟩, _, ⟨hsecond, rfl⟩, rfl⟩, rfl⟩
      exact ⟨⟨hfirst, hsecond⟩, by rw [hpayload, put_parts (by simp)]; rfl⟩
    · rintro ⟨⟨hfirst, hsecond⟩, rfl⟩
      exact ⟨_, ⟨_, ⟨hfirst, rfl⟩, _, ⟨hsecond, rfl⟩, rfl⟩,
        by rw [hpayload, put_parts (by simp)]; rfl⟩
  | boolean value =>
    simp only [encode, parts, pure_eq, bind_ok, put_parts (length_zeros 16), Except.ok.injEq,
      Encodable, bytes, ← zeros_halves, true_and, eq_comm]
  | reactionProgress flags workItems pending transactionId =>
    have hpayload : put (put (put (zeros 16) 0 (le32 workItems)) 4 (le32 (boolWord pending))) 8
        (le64 transactionId) = (le32 workItems ++ le32 (boolWord pending)) ++ le64 transactionId := by
      simp [put_append, put_zeros]
    simp only [encode, parts, bind_eq_ok, failIf_eq_ok, pure_eq, Except.ok.injEq, not_not]
    constructor
    · rintro ⟨_, ⟨_, hflags, rfl⟩, rfl⟩
      exact ⟨hflags, by rw [hpayload, put_parts (by simp)]; rfl⟩
    · rintro ⟨hflags, rfl⟩
      exact ⟨_, ⟨(), hflags, rfl⟩, by rw [hpayload, put_parts (by simp)]; rfl⟩

end MixtureCommandResponse

/-- A response is its bytes. -/
theorem mixtureCommandResponse_codec :
    Codec MixtureCommandResponse.encode MixtureCommandResponse.decode where
  decode_encode := by
    intro response bs h
    obtain ⟨hresponse, rfl⟩ := MixtureCommandResponse.encode_eq_ok.1 h
    cases response with
    | applied updated =>
      rw [MixtureCommandResponse.bytes, MixtureCommandResponse.decode_halves (length_zeros 8) (length_zeros 8),
        if_pos (by simp)]
      rfl
    | scalar value =>
      rw [MixtureCommandResponse.bytes, MixtureCommandResponse.decode_halves (length_bytes _) (length_zeros 8),
        if_neg (by simp), if_pos (by simp), ScalarValue.decode_bytes hresponse]
      rfl
    | scalars first second =>
      rw [MixtureCommandResponse.bytes, MixtureCommandResponse.decode_halves (length_bytes _) (length_bytes _),
        if_neg (by simp), if_neg (by simp), if_pos (by simp), ScalarValue.decode_bytes hresponse.1,
        ScalarValue.decode_bytes hresponse.2]
      rfl
    | boolean value =>
      rw [MixtureCommandResponse.bytes, MixtureCommandResponse.decode_halves (length_zeros 8) (length_zeros 8),
        if_neg (by simp), if_neg (by simp), if_neg (by simp), if_pos (by simp),
        decodeBoolean_eq_ok.2 rfl]
      rfl
    | reactionProgress flags workItems pending transactionId =>
      have hflags : flags &&& ~~~reactionFlagMask = 0 := hresponse
      have hpending : decodeBoolean (boolWord pending) = .ok pending := decodeBoolean_eq_ok.2 rfl
      rw [MixtureCommandResponse.bytes, MixtureCommandResponse.decode_halves (by simp) (length_le64 _),
        if_neg (by simp), if_neg (by simp), if_neg (by simp), if_neg (by simp), if_pos rfl,
        rejectIf_neg (not_not.2 hflags)]
      simp [readU32_skip, hpending]
  encode_decode := by
    intro response bs h
    rw [MixtureCommandResponse.encode_eq_ok]
    obtain ⟨_, hlength, -⟩ := bind_eq_ok.1 h
    have hlength := requireExactLen_eq_ok.1 hlength
    unfold mixtureCommandResponseLen at hlength
    obtain ⟨kind, bs, rfl, h₁⟩ := exists_le32_append (show 4 ≤ bs.length by omega)
    obtain ⟨value, bs, rfl, h₂⟩ := exists_le32_append (show 4 ≤ bs.length by omega)
    obtain ⟨p, q, rfl, hp, h₃⟩ := exists_append (show 8 ≤ bs.length by omega)
    have hq : q.length = 8 := by omega
    rw [MixtureCommandResponse.decode_halves hp hq] at h
    split at h
    · rename_i hc
      obtain ⟨rfl, hblank, hblank'⟩ := hc
      cases h
      rw [isBlank_iff, hp] at hblank
      rw [isBlank_iff, hq] at hblank'
      exact ⟨trivial, by rw [hblank, hblank']; rfl⟩
    split at h
    · rename_i hc
      obtain ⟨rfl, rfl, hblank⟩ := hc
      simp only [bind_eq_ok, ScalarValue.decode_eq_ok hp, pure_eq, Except.ok.injEq] at h
      obtain ⟨v, ⟨hv, rfl⟩, rfl⟩ := h
      rw [isBlank_iff, hq] at hblank
      exact ⟨hv, by rw [hblank]; rfl⟩
    split at h
    · rename_i hc
      obtain ⟨rfl, rfl⟩ := hc
      simp only [bind_eq_ok, ScalarValue.decode_eq_ok hp, ScalarValue.decode_eq_ok hq, pure_eq,
        Except.ok.injEq] at h
      obtain ⟨v, ⟨hv, rfl⟩, w, ⟨hw, rfl⟩, rfl⟩ := h
      exact ⟨⟨hv, hw⟩, rfl⟩
    split at h
    · rename_i hc
      obtain ⟨rfl, hblank, hblank'⟩ := hc
      simp only [bind_eq_ok, lift_eq_ok, decodeBoolean_eq_ok, pure_eq, Except.ok.injEq] at h
      obtain ⟨b, rfl, rfl⟩ := h
      rw [isBlank_iff, hp] at hblank
      rw [isBlank_iff, hq] at hblank'
      exact ⟨trivial, by rw [hblank, hblank']; rfl⟩
    split at h
    · rename_i hc
      subst hc
      obtain ⟨workItems, p, rfl, h₄⟩ := exists_le32_append (show 4 ≤ p.length by omega)
      obtain ⟨pending, p, rfl, h₅⟩ := exists_le32_append (show 4 ≤ p.length by omega)
      obtain rfl : p = [] := List.eq_nil_of_length_eq_zero (by omega)
      obtain ⟨transactionId, q, rfl, h₆⟩ := exists_le64_append (show 8 ≤ q.length by omega)
      obtain rfl : q = [] := List.eq_nil_of_length_eq_zero (by omega)
      simp only [List.append_nil, bind_eq_ok, rejectIf_eq_ok, not_not, readU32_block, readU32_skip,
        length_le32, Nat.reduceLeDiff, Nat.reduceSub, readU32_all, readU64_all, lift_eq_ok,
        decodeBoolean_eq_ok, pure_eq, Except.ok.injEq] at h
      obtain ⟨_, hflags, _, rfl, _, rfl, b, rfl, _, rfl, rfl⟩ := h
      exact ⟨hflags, by simp [MixtureCommandResponse.bytes]⟩
    · cases h

/-- Commands and their responses are their bytes: what was encoded is decoded again, and a string
that is accepted is the only one for its command. -/
theorem mixture_commands_canonical :
    (Codec MixtureCommandRequest.encode MixtureCommandRequest.decode ∧
      Codec MixtureCommandResponse.encode MixtureCommandResponse.decode) ∧
    (∀ (request : MixtureCommandRequest) (bs bs' : Bytes),
      MixtureCommandRequest.decode bs = .ok request →
        MixtureCommandRequest.decode bs' = .ok request → bs = bs') ∧
    ∀ (response : MixtureCommandResponse) (bs bs' : Bytes),
      MixtureCommandResponse.decode bs = .ok response →
        MixtureCommandResponse.decode bs' = .ok response → bs = bs' :=
  ⟨⟨mixtureCommandRequest_codec, mixtureCommandResponse_codec⟩,
    fun _ _ _ => mixtureCommandRequest_codec.unique,
    fun _ _ _ => mixtureCommandResponse_codec.unique⟩

/-! ## Decoders stay in their input -/

theorem MixtureCommandRequest.safe_decode (input : Bytes) :
    Safe (MixtureCommandRequest.decode input) := by
  unfold MixtureCommandRequest.decode mixtureCommandRequestLen
  refine safe_requireExactLen_bind fun hlength => ?_
  refine safe_bind (safe_readU16 (by omega)) fun kind _ => ?_
  refine safe_bind (safe_readU16 (by omega)) fun flags _ => ?_
  refine safe_rejectIf_bind fun _ => ?_
  refine safe_bind (safe_readU16 (by omega)) fun reserved _ => ?_
  refine safe_bind (safe_readU32 (by omega)) fun reserved' _ => ?_
  refine safe_rejectIf_bind fun _ => ?_
  refine safe_rejectIf_bind fun _ => ?_
  refine safe_bind (safe_slice (by omega) (by omega)) fun secondaryBytes _ => ?_
  refine safe_bind (safe_slice (by omega) (by omega)) fun s1Bytes _ => ?_
  refine safe_bind (safe_slice (by omega) (by omega)) fun s2Bytes _ => ?_
  refine safe_bind (safe_slice (by omega) (by omega)) fun s3Bytes _ => ?_
  refine safe_bind (safe_slice (by omega) (by omega)) fun primaryBytes _ => ?_
  refine safe_bind (WireHandle.safe_decode _) fun primary _ => ?_
  refine safe_bind (WireHandle.safe_decode _) fun secondary _ => ?_
  refine safe_bind (ScalarValue.safe_decode _) fun s1 _ => ?_
  refine safe_bind (ScalarValue.safe_decode _) fun s2 _ => ?_
  refine safe_bind (ScalarValue.safe_decode _) fun s3 _ => ?_
  refine safe_bind (safe_readU16 (by omega)) fun gasId _ => ?_
  refine safe_bind (safe_readU32 (by omega)) fun aux _ => ?_
  exact safe_rejectIf_bind fun _ => safe_lift _

end Dogmos
