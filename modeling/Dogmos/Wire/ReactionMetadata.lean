import Dogmos.Wire.Metadata

/-!
# Metadata of reactions and the batches of metadata

The thresholds of a reaction are optional: a bit says which are there, and the others are
zero.  The two batches are counted payloads with limits of their own.

* `ReactionMetadataRegistration.decode_eq_ok` — the decoder of a record.
* `metadata_codecs` — both batches are strict codecs.
-/

namespace Dogmos.Wire

open Bytes

/-! ## Reactions -/

def maxReactionMetadata : UInt32 := 1024

def reactionMetadataRecordLen : Nat := 632

/-- `WireReactionExecution`. -/
inductive WireReactionExecution where
  | dm
  | nativePlasma
  | nativeHydrogen
  | nativeTritium
  | nativeFreon
deriving DecidableEq

/-- `WireGasRequirement`. -/
structure WireGasRequirement where
  gasId : UInt16
  minimumMoles : ScalarValue
deriving DecidableEq

/-- `ReactionMetadataRegistration`. -/
structure ReactionMetadataRegistration where
  id : UInt32
  key : String
  priority : ScalarValue
  minimumTemperature : Option ScalarValue
  maximumTemperature : Option ScalarValue
  minimumEnergy : Option ScalarValue
  minimumFireReagents : Option ScalarValue
  gasRequirements : List WireGasRequirement
  execution : WireReactionExecution
deriving DecidableEq

namespace WireReactionExecution

def toU16 : WireReactionExecution → UInt16
  | .dm => 0
  | .nativePlasma => 1
  | .nativeHydrogen => 2
  | .nativeTritium => 3
  | .nativeFreon => 4

def ofU16 (value : UInt16) : Except ProtocolError WireReactionExecution :=
  if value = 0 then .ok .dm
  else if value = 1 then .ok .nativePlasma
  else if value = 2 then .ok .nativeHydrogen
  else if value = 3 then .ok .nativeTritium
  else if value = 4 then .ok .nativeFreon
  else .error (.unknownReactionExecution value)

theorem ofU16_eq_ok {value : UInt16} {execution : WireReactionExecution} :
    ofU16 value = .ok execution ↔ execution.toU16 = value := by
  unfold ofU16
  constructor
  · intro h
    split at h
    · cases h
      exact Eq.symm ‹_›
    split at h
    · cases h
      exact Eq.symm ‹_›
    split at h
    · cases h
      exact Eq.symm ‹_›
    split at h
    · cases h
      exact Eq.symm ‹_›
    split at h
    · cases h
      exact Eq.symm ‹_›
    · cases h
  · rintro rfl
    cases execution <;> rfl

end WireReactionExecution

/-- The thresholds of a reaction in the order of the record. -/
def ReactionMetadataRegistration.options (entry : ReactionMetadataRegistration) :
    List (Option ScalarValue) :=
  [entry.minimumTemperature, entry.maximumTemperature, entry.minimumEnergy,
    entry.minimumFireReagents]

/-- The flags of the thresholds that are there. -/
def optionFlags (options : List (Option ScalarValue)) : UInt32 :=
  options.zipIdx.foldl
    (fun flags entry => flags ||| (boolWord entry.1.isSome <<< UInt32.ofNat entry.2)) 0

/-- `encode_reaction_metadata`. -/
def ReactionMetadataRegistration.encode (entry : ReactionMetadataRegistration) : Encoded := do
  let key ← boundedBytes entry.key maxMetadataKeyBytes
  failIf (wireGasSlots < entry.gasRequirements.length)
    (.operationCountExceeded (UInt32.ofNat (min entry.gasRequirements.length (2 ^ 32 - 1)))
      (UInt32.ofNat wireGasSlots))
  let output := zeros reactionMetadataRecordLen
  let output := put output 0 (le32 entry.id)
  let output := put output 4 (le16 (UInt16.ofNat key.length))
  let output := put output 6 (le16 entry.execution.toU16)
  let output := put output 8 (le32 (optionFlags entry.options))
  let output := put output 12 (le32 (UInt32.ofNat entry.gasRequirements.length))
  let output := put output 16 (← entry.priority.encode)
  let output := put output 24
    (← encodeAll (fun value => (value.getD .zero).encode) entry.options)
  let output := put output 56 key
  pure (put output 120 (← encodeAll
    (fun requirement => encodeGasAmount requirement.gasId requirement.minimumMoles)
    entry.gasRequirements))

/-- `option_from_flag`. -/
def optionFromFlag (flags bit : UInt32) (value : ScalarValue) : Option ScalarValue :=
  if flags &&& (1 <<< bit) ≠ 0 then some value else none

/-- `decode_reaction_metadata`. -/
def ReactionMetadataRegistration.decode (input : Bytes) :
    Decoded ReactionMetadataRegistration := do
  let keyLen := (← readU16 input 4).toNat
  lift (validateStringLen keyLen maxMetadataKeyBytes)
  requireZero input (56 + keyLen) 120
  let key ← readText input 56 (56 + keyLen)
  let flags ← readU32 input 8
  rejectIf (flags &&& ~~~15 ≠ 0) (.unknownMetadataFlags flags)
  let requirementCount ← readU32 input 12
  rejectIf (UInt32.ofNat wireGasSlots < requirementCount)
    (.operationCountExceeded requirementCount (UInt32.ofNat wireGasSlots))
  let priority ← readScalar input 16
  let options ← decodeScalars 4 input 24
  checkRecords (fun index => whenever (flags &&& (1 <<< UInt32.ofNat index) = 0)
    (requireZero input (24 + index * 8) (32 + index * 8))) 0 4
  let execution ← lift (WireReactionExecution.ofU16 (← readU16 input 6))
  let gasRequirements ← paddedRecords (gasAmountRecord WireGasRequirement.mk) input 120
    requirementCount.toNat 0 wireGasSlots
  let id ← readU32 input 0
  pure {
    id, key, priority
    minimumTemperature := optionFromFlag flags 0 options[0]
    maximumTemperature := optionFromFlag flags 1 options[1]
    minimumEnergy := optionFromFlag flags 2 options[2]
    minimumFireReagents := optionFromFlag flags 3 options[3]
    gasRequirements, execution }

/-! ### The flags of the thresholds -/

/-- The word of four booleans. -/
def optionBits (a b c d : Bool) : UInt32 :=
  boolWord a ||| boolWord b <<< 1 ||| boolWord c <<< 2 ||| boolWord d <<< 3

theorem optionBits_masked : ∀ a b c d : Bool, optionBits a b c d &&& ~~~15 = 0 := by decide

/-- A bit of the word. -/
theorem optionBits_bit (a b c d : Bool) :
    (optionBits a b c d &&& ((1 : UInt32) <<< 0) = 0 ↔ a = false) ∧
      (optionBits a b c d &&& ((1 : UInt32) <<< 1) = 0 ↔ b = false) ∧
      (optionBits a b c d &&& ((1 : UInt32) <<< 2) = 0 ↔ c = false) ∧
      (optionBits a b c d &&& ((1 : UInt32) <<< 3) = 0 ↔ d = false) := by
  cases a <;> cases b <;> cases c <;> cases d <;> decide

theorem exists_optionBits {flags : UInt32} (h : flags &&& ~~~15 = 0) :
    ∃ a b c d : Bool, flags = optionBits a b c d := by
  have hlt : flags.toNat < 2 ^ 4 := toNat_lt_of_mask rfl h
  have hbits : ∀ n : Fin 16, ∃ a b c d : Bool, n.val = (optionBits a b c d).toNat := by decide
  obtain ⟨a, b, c, d, hflags⟩ := hbits ⟨flags.toNat, hlt⟩
  exact ⟨a, b, c, d, UInt32.toNat_inj.1 hflags⟩

theorem optionFlags_eq (a b c d : Option ScalarValue) :
    optionFlags [a, b, c, d] = optionBits a.isSome b.isSome c.isSome d.isSome := by
  simp [optionFlags, optionBits, List.zipIdx]

theorem optionFromFlag_bits (a b c d : Bool) (value : ScalarValue) :
    optionFromFlag (optionBits a b c d) 0 value = (if a then some value else none) ∧
      optionFromFlag (optionBits a b c d) 1 value = (if b then some value else none) ∧
      optionFromFlag (optionBits a b c d) 2 value = (if c then some value else none) ∧
      optionFromFlag (optionBits a b c d) 3 value = (if d then some value else none) := by
  obtain ⟨ha, hb, hc, hd⟩ := optionBits_bit a b c d
  unfold optionFromFlag
  simp only [ne_eq, ha, hb, hc, hd, Bool.not_eq_false, and_self]

/-! ### What a reaction record is -/

/-- A reaction record, field by field. -/
def reactionBytes (id : UInt32) (keyLen execution : UInt16) (flags count : UInt32)
    (priority row key area : Bytes) : Bytes :=
  le32 id ++ (le16 keyLen ++ (le16 execution ++ (le32 flags ++ (le32 count ++ (priority ++
    (row ++ (key ++ area)))))))

/-- The bytes of a reaction. -/
structure ReactionMetadataRegistration.Carries (entry : ReactionMetadataRegistration)
    (bs : Bytes) : Prop where
  key : (utf8 entry.key).length ≤ maxMetadataKeyBytes
  requirements : entry.gasRequirements.length ≤ wireGasSlots
  priority : entry.priority.Finite
  layout : ∃ row body : Bytes,
    CarriesAll ScalarCarries (entry.options.map fun value => value.getD .zero) row ∧
    CarriesAll (fun requirement r =>
      encodeGasAmount requirement.gasId requirement.minimumMoles = .ok r) entry.gasRequirements body ∧
    bs = reactionBytes entry.id (UInt16.ofNat (utf8 entry.key).length) entry.execution.toU16
      (optionFlags entry.options) (UInt32.ofNat entry.gasRequirements.length) entry.priority.bytes
      row (padded maxMetadataKeyBytes (utf8 entry.key)) (padded (wireGasSlots * 16) body)

theorem requirementFormat : RecordFormat 16
    (fun (requirement : WireGasRequirement) bs =>
      encodeGasAmount requirement.gasId requirement.minimumMoles = .ok bs)
    (gasAmountRecord WireGasRequirement.mk) :=
  gasAmountFormat fun a g s => by
    cases a
    simp [eq_comm]

/-- The writes of `encode_reaction_metadata`, from front to back. -/
theorem reaction_writes {priority row body key : Bytes} (hpriority : priority.length = 8)
    (hrow : row.length = 4 * 8) (hkey : key.length ≤ 64) (hbody : body.length ≤ 512) (a : UInt32)
    (b c : UInt16) (d e : UInt32) :
    put (put (put (put (put (put (put (put (put (zeros 632) 0 (le32 a)) 4 (le16 b)) 6 (le16 c)) 8
      (le32 d)) 12 (le32 e)) 16 priority) 24 row) 56 key) 120 body =
    reactionBytes a b c d e priority row (padded 64 key) (padded 512 body) := by
  simp [reactionBytes, put_append, put_zeros, hpriority, hrow, put_padded hkey, put_padded hbody,
    length_padded hkey]

theorem ReactionMetadataRegistration.encode_eq_ok {entry : ReactionMetadataRegistration}
    {bs : Bytes} : entry.encode = .ok bs ↔ entry.Carries bs := by
  have hwrites : ∀ {row body : Bytes}, (utf8 entry.key).length ≤ maxMetadataKeyBytes →
      entry.gasRequirements.length ≤ wireGasSlots →
      CarriesAll ScalarCarries (entry.options.map fun value => value.getD .zero) row →
      CarriesAll (fun requirement r =>
        encodeGasAmount requirement.gasId requirement.minimumMoles = .ok r)
        entry.gasRequirements body → _ :=
    fun {row body} hkey hlist hrow hbody =>
      reaction_writes (length_bytes entry.priority) (scalarFormat.length_all hrow) hkey (by
        rw [requirementFormat.length_all hbody]
        exact Nat.mul_le_mul_right 16 hlist) entry.id (UInt16.ofNat (utf8 entry.key).length)
        entry.execution.toU16 (optionFlags entry.options)
        (UInt32.ofNat entry.gasRequirements.length)
  have hrowAll : ∀ row : Bytes,
      CarriesAll (fun (value : Option ScalarValue) r => (value.getD .zero).encode = .ok r)
        entry.options row ↔
      CarriesAll ScalarCarries (entry.options.map fun value => value.getD .zero) row := by
    intro row
    rw [carriesAll_map]
    exact carriesAll_congr fun _ _ => ScalarValue.encode_eq_ok
  unfold ReactionMetadataRegistration.encode
  simp only [bind_eq_ok, boundedBytes_eq_ok, failIf_eq_ok, Nat.not_lt, encodeAll_eq_ok, hrowAll,
    pure_eq, Except.ok.injEq]
  simp only [ScalarValue.encode_eq_ok]
  constructor
  · rintro ⟨_, ⟨hkey, rfl⟩, _, hlist, _, ⟨hpriority, rfl⟩, row, hrow, body, hbody, rfl⟩
    exact ⟨hkey, hlist, hpriority, row, body, hrow, hbody, hwrites hkey hlist hrow hbody⟩
  · rintro ⟨hkey, hlist, hpriority, row, body, hrow, hbody, rfl⟩
    exact ⟨_, ⟨hkey, rfl⟩, (), hlist, _, ⟨hpriority, rfl⟩, row, hrow, body, hbody,
      hwrites hkey hlist hrow hbody⟩

/-- A string of the length of a reaction, split into its fields. -/
theorem exists_reaction_fields {bs : Bytes} (h : bs.length = reactionMetadataRecordLen) :
    ∃ (id : UInt32) (keyLen execution : UInt16) (flags count : UInt32)
      (priority row key area : Bytes),
      bs = reactionBytes id keyLen execution flags count priority row key area ∧
        priority.length = 8 ∧ row.length = 4 * 8 ∧ key.length = maxMetadataKeyBytes ∧
          area.length = wireGasSlots * 16 := by
  unfold reactionMetadataRecordLen at h
  unfold maxMetadataKeyBytes wireGasSlots
  obtain ⟨id, bs, rfl, h₁⟩ := exists_le32_append (show 4 ≤ bs.length by omega)
  obtain ⟨keyLen, bs, rfl, h₂⟩ := exists_le16_append (show 2 ≤ bs.length by omega)
  obtain ⟨execution, bs, rfl, h₃⟩ := exists_le16_append (show 2 ≤ bs.length by omega)
  obtain ⟨flags, bs, rfl, h₄⟩ := exists_le32_append (show 4 ≤ bs.length by omega)
  obtain ⟨count, bs, rfl, h₅⟩ := exists_le32_append (show 4 ≤ bs.length by omega)
  obtain ⟨priority, bs, rfl, hpriority, h₆⟩ := exists_append (show 8 ≤ bs.length by omega)
  obtain ⟨row, bs, rfl, hrow, h₇⟩ := exists_append (show 32 ≤ bs.length by omega)
  obtain ⟨key, area, rfl, hkey, h₈⟩ := exists_append (show 64 ≤ bs.length by omega)
  exact ⟨id, keyLen, execution, flags, count, priority, row, key, area, rfl, hpriority, hrow, hkey,
    by omega⟩

section Reaction

variable {id : UInt32} {keyLen execution : UInt16} {flags count : UInt32}
  {priority row key area : Bytes}

/-- The words of a reaction record. -/
theorem reaction_words :
    (readU32 (reactionBytes id keyLen execution flags count priority row key area) 0 =
        (.ok id : Decoded UInt32) ∧
      readU16 (reactionBytes id keyLen execution flags count priority row key area) 4 =
        (.ok keyLen : Decoded UInt16) ∧
      readU16 (reactionBytes id keyLen execution flags count priority row key area) 6 =
        (.ok execution : Decoded UInt16)) ∧
    readU32 (reactionBytes id keyLen execution flags count priority row key area) 8 =
        (.ok flags : Decoded UInt32) ∧
      readU32 (reactionBytes id keyLen execution flags count priority row key area) 12 =
        (.ok count : Decoded UInt32) := by
  simp [reactionBytes, readU16_skip, readU32_skip]

theorem reaction_priority {value : ScalarValue} (hpriority : priority.length = 8) :
    readScalar (reactionBytes id keyLen execution flags count priority row key area) 16 = .ok value ↔
      value.Finite ∧ priority = value.bytes := by
  unfold reactionBytes
  simp only [readScalar_skip, readScalar_block _ hpriority, length_le32, length_le16,
    Nat.reduceLeDiff, Nat.reduceSub, ScalarValue.decode_eq_ok hpriority]

/-- The numbers of a reaction record. -/
theorem reaction_scalars {v : Vector ScalarValue 4} (hpriority : priority.length = 8)
    (hrow : row.length = 4 * 8) :
    decodeScalars 4 (reactionBytes id keyLen execution flags count priority row key area) 24 =
      .ok v ↔ CarriesAll ScalarCarries v.toList row := by
  have hread := @decodeScalars_eq_ok 4 24
    (le32 id ++ (le16 keyLen ++ (le16 execution ++ (le32 flags ++ (le32 count ++ priority)))))
    row (key ++ area) v (by simp [hpriority]) hrow
  simpa only [reactionBytes, List.append_assoc] using hread

/-- The numbers of a reaction record that have to be zero. -/
theorem reaction_zeros {v : Vector ScalarValue 4} (hpriority : priority.length = 8)
    (h : CarriesAll ScalarCarries v.toList row) {u : Unit} :
    checkRecords (fun index => whenever (flags &&& (1 <<< UInt32.ofNat index) = 0)
        (requireZero (reactionBytes id keyLen execution flags count priority row key area)
          (24 + index * 8) (32 + index * 8))) 0 4 = .ok u ↔
      ∀ i (hi : i < 4), flags &&& (1 <<< UInt32.ofNat i) = 0 → v[i] = .zero := by
  have hfront : (le32 id ++ (le16 keyLen ++ (le16 execution ++ (le32 flags ++ (le32 count ++
      priority))))).length = 24 := by simp [hpriority]
  have hsplit : reactionBytes id keyLen execution flags count priority row key area =
      (le32 id ++ (le16 keyLen ++ (le16 execution ++ (le32 flags ++ (le32 count ++ priority))))) ++
        (row ++ (key ++ area)) := by
    simp only [reactionBytes, List.append_assoc]
  rw [checkRecords_eq_ok, hsplit]
  refine forall_congr' fun i => forall_congr' fun hi => ?_
  have hstop : 32 + i * 8 - 24 = i * 8 + 8 := by omega
  rw [Nat.zero_add, whenever_eq_ok, requireZero_skip _ (by omega) (by omega), hfront,
    Nat.add_sub_cancel_left, hstop, requireZero_slot _ h hi]

/-- The key of a reaction record. -/
theorem reaction_key {n : Nat} (hpriority : priority.length = 8) (hrow : row.length = 4 * 8)
    (hkey : key.length = maxMetadataKeyBytes) (hn : n ≤ maxMetadataKeyBytes) :
    (∀ u, requireZero (reactionBytes id keyLen execution flags count priority row key area)
        (56 + n) 120 = .ok u ↔ isBlank (key.drop n) = true) ∧
      ∀ s, readText (reactionBytes id keyLen execution flags count priority row key area) 56
        (56 + n) = .ok s ↔ utf8 s = key.take n := by
  unfold maxMetadataKeyBytes at hkey hn
  have hfront : (le32 id ++ (le16 keyLen ++ (le16 execution ++ (le32 flags ++ (le32 count ++
      (priority ++ row)))))).length = 56 := by simp [hpriority, hrow]
  have hsplit : reactionBytes id keyLen execution flags count priority row key area =
      (le32 id ++ (le16 keyLen ++ (le16 execution ++ (le32 flags ++ (le32 count ++ (priority ++
        row)))))) ++ (key ++ area) := by
    simp only [reactionBytes, List.append_assoc]
  rw [hsplit]
  constructor
  · intro u
    rw [requireZero_skip _ (by omega) (by omega), hfront, Nat.add_sub_cancel_left,
      requireZero_eq_ok (by omega) (by omega)]
  · intro s
    rw [readText_skip _ (by omega) (by omega), hfront, Nat.add_sub_cancel_left, Nat.sub_self,
      readText_eq_ok (by omega)]

theorem reaction_requirements {requirements : List WireGasRequirement}
    (hpriority : priority.length = 8) (hrow : row.length = 4 * 8)
    (hkey : key.length = maxMetadataKeyBytes) (harea : area.length = wireGasSlots * 16)
    (hcount : count.toNat ≤ wireGasSlots) :
    paddedRecords (gasAmountRecord WireGasRequirement.mk)
        (reactionBytes id keyLen execution flags count priority row key area) 120 count.toNat 0
        wireGasSlots = .ok requirements ↔
      requirements.length = count.toNat ∧ ∃ body : Bytes,
        CarriesAll (fun requirement r =>
          encodeGasAmount requirement.gasId requirement.minimumMoles = .ok r) requirements body ∧
        area = padded (wireGasSlots * 16) body := by
  have hread := @paddedRecords_eq_ok _ _ _ 120 count.toNat requirementFormat wireGasSlots 0
    (le32 id ++ (le16 keyLen ++ (le16 execution ++ (le32 flags ++ (le32 count ++ (priority ++
      (row ++ key))))))) area requirements (by omega)
    (by simp [hpriority, hrow, hkey, maxMetadataKeyBytes]) harea
  simpa only [reactionBytes, List.append_assoc, Nat.sub_zero] using hread

/-- The fields of two reaction records agree where the records do. -/
theorem reactionBytes_inj {id' : UInt32} {keyLen' execution' : UInt16} {flags' count' : UInt32}
    {priority' row' key' area' : Bytes} (hpriority : priority.length = priority'.length)
    (hrow : row.length = row'.length) (hkey : key.length = key'.length) :
    reactionBytes id keyLen execution flags count priority row key area =
        reactionBytes id' keyLen' execution' flags' count' priority' row' key' area' ↔
      (id = id' ∧ keyLen = keyLen' ∧ execution = execution' ∧ flags = flags' ∧ count = count') ∧
        priority = priority' ∧ row = row' ∧ key = key' ∧ area = area' := by
  unfold reactionBytes
  simp only [le16_append_inj, le32_append_inj, append_inj_iff hpriority, append_inj_iff hrow,
    append_inj_iff hkey]
  constructor
  · rintro ⟨rfl, rfl, rfl, rfl, rfl, rfl, rfl, rfl, rfl⟩
    simp
  · rintro ⟨⟨rfl, rfl, rfl, rfl, rfl⟩, rfl, rfl, rfl, rfl⟩
    simp

theorem toList_four (v : Vector ScalarValue 4) : v.toList = [v[0], v[1], v[2], v[3]] := by
  obtain ⟨⟨list⟩, hsize⟩ := v
  match list, hsize with
  | [a, b, c, d], _ => rfl

/-- The zeros of the thresholds that are not there. -/
theorem forall_four {a b c d : Bool} {v : Vector ScalarValue 4} :
    (∀ i (hi : i < 4), optionBits a b c d &&& (1 <<< UInt32.ofNat i) = 0 → v[i] = .zero) ↔
      (a = false → v[0] = .zero) ∧ (b = false → v[1] = .zero) ∧ (c = false → v[2] = .zero) ∧
        (d = false → v[3] = .zero) := by
  obtain ⟨ha, hb, hc, hd⟩ := optionBits_bit a b c d
  constructor
  · intro h
    exact ⟨fun h0 => h 0 (by decide) (ha.2 h0), fun h1 => h 1 (by decide) (hb.2 h1),
      fun h2 => h 2 (by decide) (hc.2 h2), fun h3 => h 3 (by decide) (hd.2 h3)⟩
  · rintro ⟨h0, h1, h2, h3⟩ i hi hbit
    match i, hi with
    | 0, _ => exact h0 (ha.1 hbit)
    | 1, _ => exact h1 (hb.1 hbit)
    | 2, _ => exact h2 (hc.1 hbit)
    | 3, _ => exact h3 (hd.1 hbit)

theorem decodeReaction_fields {entry : ReactionMetadataRegistration} (hpriority : priority.length = 8)
    (hrow : row.length = 4 * 8) (hkey : key.length = maxMetadataKeyBytes)
    (harea : area.length = wireGasSlots * 16) :
    ReactionMetadataRegistration.decode
        (reactionBytes id keyLen execution flags count priority row key area) = .ok entry ↔
      entry.Carries (reactionBytes id keyLen execution flags count priority row key area) := by
  unfold ReactionMetadataRegistration.decode
  simp only [reaction_words, bind_ok, bind_eq_ok, lift_eq_ok, validateStringLen_eq_ok,
    rejectIf_eq_ok, not_not, not_slots_lt, reaction_priority hpriority,
    reaction_scalars hpriority hrow, WireReactionExecution.ofU16_eq_ok, pure_eq, Except.ok.injEq]
  constructor
  · rintro ⟨_, hkeyLen, _, hkeyPad, keyText, hkeyText, _, hflags, _, hcount, value, ⟨hvalue, rfl⟩,
      v, hv, _, hzeros, exec, rfl, requirements, hrequirements, rfl⟩
    have hkeyField := (textField hkey hkeyLen).1
      ⟨((reaction_key hpriority hrow hkey hkeyLen).2 _).1 hkeyText,
        ((reaction_key hpriority hrow hkey hkeyLen).1 _).1 hkeyPad⟩
    obtain ⟨hlength, body, hbody, harea⟩ :=
      (reaction_requirements hpriority hrow hkey harea hcount).1 hrequirements
    have hzeros := (reaction_zeros hpriority hv).1 hzeros
    obtain ⟨a, b, c, d, rfl⟩ := exists_optionBits hflags
    obtain ⟨ha, hb, hc, hd⟩ := forall_four.1 hzeros
    obtain ⟨hasome, ha⟩ := optional_eq.1 ⟨ha, rfl⟩
    obtain ⟨hbsome, hb⟩ := optional_eq.1 ⟨hb, rfl⟩
    obtain ⟨hcsome, hc⟩ := optional_eq.1 ⟨hc, rfl⟩
    obtain ⟨hdsome, hd⟩ := optional_eq.1 ⟨hd, rfl⟩
    simp only [optionFromFlag_bits]
    refine ⟨hkeyField.1 ▸ hkeyLen, hlength ▸ hcount, hvalue, row, body, ?_, hbody, ?_⟩
    · rw [toList_four] at hv
      simpa only [ReactionMetadataRegistration.options, List.map_cons, List.map_nil, ha, hb, hc, hd]
        using hv
    · rw [← hkeyField.1, ← hkeyField.2, ← harea, hlength, ReactionMetadataRegistration.options,
        optionFlags_eq, hasome, hbsome, hcsome, hdsome, UInt16.ofNat_toNat, UInt32.ofNat_toNat]
  · rintro ⟨hk, hp, hvalue, row', body, hrow', hbody, hbytes⟩
    rw [reactionBytes_inj (hpriority.trans (length_bytes _).symm)
      (hrow.trans (scalarFormat.length_all hrow').symm) (hkey.trans (length_padded hk).symm)]
      at hbytes
    obtain ⟨⟨rfl, rfl, rfl, rfl, rfl⟩, rfl, rfl, rfl, rfl⟩ := hbytes
    have hkeyLen : (UInt16.ofNat (utf8 entry.key).length).toNat = (utf8 entry.key).length :=
      UInt16.toNat_ofNat_of_lt' (Nat.lt_of_le_of_lt hk (by decide))
    have hcount : (UInt32.ofNat entry.gasRequirements.length).toNat =
        entry.gasRequirements.length :=
      UInt32.toNat_ofNat_of_lt' (Nat.lt_of_le_of_lt hp (by decide))
    have hv : CarriesAll ScalarCarries (#v[entry.minimumTemperature.getD .zero,
        entry.maximumTemperature.getD .zero, entry.minimumEnergy.getD .zero,
        entry.minimumFireReagents.getD .zero] : Vector ScalarValue 4).toList row := hrow'
    have hk := Nat.le_trans (Nat.le_of_eq hkeyLen) hk
    have hp := Nat.le_trans (Nat.le_of_eq hcount) hp
    have hkeyField := (textField hkey hk).2 ⟨hkeyLen, rfl⟩
    obtain ⟨ha, hoa⟩ := optional_eq.2 ⟨rfl, (rfl : entry.minimumTemperature.getD .zero = _)⟩
    obtain ⟨hb, hob⟩ := optional_eq.2 ⟨rfl, (rfl : entry.maximumTemperature.getD .zero = _)⟩
    obtain ⟨hc, hoc⟩ := optional_eq.2 ⟨rfl, (rfl : entry.minimumEnergy.getD .zero = _)⟩
    obtain ⟨hd, hod⟩ := optional_eq.2 ⟨rfl, (rfl : entry.minimumFireReagents.getD .zero = _)⟩
    have hflags := optionFlags_eq entry.minimumTemperature entry.maximumTemperature
      entry.minimumEnergy entry.minimumFireReagents
    unfold ReactionMetadataRegistration.options
    rw [hflags]
    refine ⟨(), hk, (), ((reaction_key hpriority hrow hkey hk).1 _).2 hkeyField.2,
      entry.key, ((reaction_key hpriority hrow hkey hk).2 _).2 hkeyField.1,
      (), optionBits_masked .., (), hp, _, ⟨hvalue, rfl⟩, _, hv,
      (), (reaction_zeros hpriority hv).2 (forall_four.2 ⟨ha, hb, hc, hd⟩), _, rfl,
      _, (reaction_requirements hpriority hrow hkey harea hp).2 ⟨hcount.symm, body, hbody, rfl⟩, ?_⟩
    simp only [optionFromFlag_bits]
    have hsame : ∀ o₀ o₁ o₂ o₃ : Option ScalarValue, o₀ = entry.minimumTemperature →
        o₁ = entry.maximumTemperature → o₂ = entry.minimumEnergy → o₃ = entry.minimumFireReagents →
        { entry with
          minimumTemperature := o₀, maximumTemperature := o₁, minimumEnergy := o₂,
          minimumFireReagents := o₃ } = entry := by
      rintro _ _ _ _ rfl rfl rfl rfl
      rfl
    exact hsame _ _ _ _ hoa hob hoc hod

end Reaction

/-- The decoder of a reaction accepts what the encoder writes. -/
theorem ReactionMetadataRegistration.decode_eq_ok {entry : ReactionMetadataRegistration}
    {bs : Bytes} (h : bs.length = reactionMetadataRecordLen) :
    ReactionMetadataRegistration.decode bs = .ok entry ↔ entry.encode = .ok bs := by
  obtain ⟨id, keyLen, execution, flags, count, priority, row, key, area, rfl, hpriority, hrow, hkey,
    harea⟩ := exists_reaction_fields h
  rw [ReactionMetadataRegistration.encode_eq_ok]
  exact decodeReaction_fields hpriority hrow hkey harea

theorem ReactionMetadataRegistration.length_encode {entry : ReactionMetadataRegistration}
    {bs : Bytes} (h : entry.encode = .ok bs) : bs.length = reactionMetadataRecordLen := by
  obtain ⟨hk, hp, -, row, body, hrow, hbody, rfl⟩ :=
    ReactionMetadataRegistration.encode_eq_ok.1 h
  have hlist : body.length ≤ wireGasSlots * 16 := by
    rw [requirementFormat.length_all hbody]
    exact Nat.mul_le_mul_right 16 hp
  have hrow : row.length = 4 * 8 := scalarFormat.length_all hrow
  unfold reactionBytes
  simp only [List.length_append, length_le16, length_le32, length_bytes, length_padded hk,
    length_padded hlist, hrow]
  rfl

theorem ReactionMetadataRegistration.safe_decode {input : Bytes}
    (h : input.length = reactionMetadataRecordLen) :
    Safe (ReactionMetadataRegistration.decode input) := by
  unfold reactionMetadataRecordLen at h
  unfold ReactionMetadataRegistration.decode
  refine safe_bind (safe_readU16 (by omega)) fun keyLen _ => ?_
  refine safe_bind (safe_lift _) fun _ hkey => ?_
  rw [lift_eq_ok, validateStringLen_eq_ok] at hkey
  unfold maxMetadataKeyBytes at hkey
  refine safe_bind (safe_requireZero (by omega) (by omega)) fun _ _ => ?_
  refine safe_bind (safe_readText (by omega) (by omega)) fun _ _ => ?_
  refine safe_bind (safe_readU32 (by omega)) fun flags _ => safe_rejectIf_bind fun _ => ?_
  refine safe_bind (safe_readU32 (by omega)) fun count _ => safe_rejectIf_bind fun _ => ?_
  refine safe_bind (safe_readScalar (by omega)) fun _ _ => ?_
  refine safe_bind (safe_decodeScalars (by omega)) fun _ _ => ?_
  refine safe_bind (safe_checkRecords fun i _ hi =>
    safe_whenever (safe_requireZero (by omega) (by omega))) fun _ _ => ?_
  refine safe_bind (safe_readU16 (by omega)) fun _ _ => safe_bind (safe_lift _) fun _ _ => ?_
  refine safe_bind (safe_paddedRecords (fun _ => safe_gasAmountRecord) ?_) fun _ _ => ?_
  · unfold wireGasSlots
    omega
  exact safe_bind (safe_readU32 (by omega)) fun _ _ => safe_ok _

/-! ## Batches -/

/-- What `encode_gas_metadata_batch` and `encode_reaction_metadata_batch` do. -/
def encodeMetadataBatch {α : Type} (encode : α → Encoded) (maximum : UInt32) (entries : List α) :
    Encoded := do
  failIf (2 ^ 32 ≤ entries.length) (.operationCountExceeded 0xFFFFFFFF maximum)
  let count := UInt32.ofNat entries.length
  failIf (maximum < count) (.operationCountExceeded count maximum)
  pure (le32 count ++ (← encodeAll encode entries))

/-- The record of a batch at an offset. -/
def recordAt {α : Type} (len : Nat) (decode : Bytes → Decoded α) (input : Bytes) (offset : Nat) :
    Decoded α := do
  decode (← slice input offset (offset + len))

/-- `encode_gas_metadata_batch`. -/
def encodeGasMetadataBatch (entries : List GasMetadataRegistration) : Encoded :=
  encodeMetadataBatch GasMetadataRegistration.encode (UInt32.ofNat wireGasSlots) entries

/-- `decode_gas_metadata_batch`. -/
def decodeGasMetadataBatch (usizeBits : Nat) (input : Bytes) :
    Decoded (List GasMetadataRegistration) :=
  decodeCounted usizeBits gasMetadataRecordLen
    (recordAt gasMetadataRecordLen GasMetadataRegistration.decode) input (UInt32.ofNat wireGasSlots)

/-- `encode_reaction_metadata_batch`. -/
def encodeReactionMetadataBatch (entries : List ReactionMetadataRegistration) : Encoded :=
  encodeMetadataBatch ReactionMetadataRegistration.encode maxReactionMetadata entries

/-- `decode_reaction_metadata_batch`. -/
def decodeReactionMetadataBatch (usizeBits : Nat) (input : Bytes) :
    Decoded (List ReactionMetadataRegistration) :=
  decodeCounted usizeBits reactionMetadataRecordLen
    (recordAt reactionMetadataRecordLen ReactionMetadataRegistration.decode) input
    maxReactionMetadata

section Batch

variable {α : Type} {len : Nat} {encode : α → Encoded} {decode : Bytes → Decoded α}

theorem recordAt_format
    (hlength : ∀ {a : α} {bs : Bytes}, encode a = .ok bs → bs.length = len)
    (hdecode : ∀ {a : α} {bs : Bytes}, bs.length = len → (decode bs = .ok a ↔ encode a = .ok bs)) :
    RecordFormat len (fun a bs => encode a = .ok bs) (recordAt len decode) where
  length := hlength
  decode_iff := by
    intro a bs h
    unfold recordAt
    rw [Nat.zero_add, slice_all h, bind_ok]
    exact hdecode h
  shift := by
    intro bs p rest h
    unfold recordAt
    rw [slice_shift_zero p rest (Nat.le_of_eq h.symm), Nat.zero_add]

theorem safe_recordAt {input : Bytes} {offset : Nat}
    (h : ∀ {bs : Bytes}, bs.length = len → Safe (decode bs)) (hfits : offset + len ≤ input.length) :
    Safe (recordAt len decode input offset) := by
  unfold recordAt
  obtain ⟨bs, hslice, hbs⟩ :=
    slice_ok (ε := ProtocolError) (Nat.le_add_right offset len) hfits
  rw [hslice, bind_ok]
  exact h (by omega)

/-- What a batch of metadata is. -/
theorem encodeMetadataBatch_eq_ok {maximum : UInt32} {entries : List α} {bs : Bytes} :
    encodeMetadataBatch encode maximum entries = .ok bs ↔
      (∃ (count : UInt32) (body : Bytes), bs = le32 count ++ body ∧
        count.toNat = entries.length ∧ CarriesAll (fun a r => encode a = .ok r) entries body) ∧
        entries.length ≤ maximum.toNat := by
  unfold encodeMetadataBatch
  simp only [bind_eq_ok, failIf_eq_ok, encodeAll_eq_ok, pure_eq, Except.ok.injEq]
  constructor
  · rintro ⟨_, hsize, _, hmaximum, body, hbody, rfl⟩
    have hcount := UInt32.toNat_ofNat_of_lt' (Nat.not_le.1 hsize)
    rw [UInt32.not_lt, UInt32.le_iff_toNat_le, hcount] at hmaximum
    exact ⟨⟨_, body, rfl, hcount, hbody⟩, hmaximum⟩
  · rintro ⟨⟨count, body, rfl, hcount, hbody⟩, hmaximum⟩
    have hsize := count.toNat_lt
    rw [hcount] at hsize
    have hword : UInt32.ofNat entries.length = count := by
      rw [← hcount, UInt32.ofNat_toNat]
    refine ⟨(), Nat.not_le.2 hsize, (), ?_, body, hbody, by rw [hword]⟩
    rw [hword, UInt32.not_lt, UInt32.le_iff_toNat_le, hcount]
    exact hmaximum

/-- A batch of metadata is decoded to what was encoded: its limit keeps its length below the
numbers of the target. -/
theorem metadataBatch_codec {usizeBits : Nat} {maximum : UInt32}
    (h : RecordFormat len (fun a bs => encode a = .ok bs) (recordAt len decode))
    (hlen : 4 + maximum.toNat * len < 2 ^ usizeBits) :
    Codec (encodeMetadataBatch encode maximum)
      (fun input => decodeCounted usizeBits len (recordAt len decode) input maximum) := by
  have hiff : ∀ {entries : List α} {bs : Bytes},
      decodeCounted usizeBits len (recordAt len decode) bs maximum = .ok entries ↔
        encodeMetadataBatch encode maximum entries = .ok bs := by
    intro entries bs
    rw [decodeCounted_eq_ok h, encodeMetadataBatch_eq_ok]
    constructor
    · exact fun hpayload => ⟨hpayload.layout, hpayload.bound⟩
    · rintro ⟨hlayout, hbound⟩
      refine ⟨hlayout, hbound, ?_⟩
      obtain ⟨count, body, rfl, hcount, hbody⟩ := hlayout
      rw [List.length_append, length_le32, h.length_all hbody]
      exact Nat.lt_of_le_of_lt (Nat.add_le_add_left (Nat.mul_le_mul_right len hbound) 4) hlen
  exact ⟨hiff.2, hiff.1⟩

/-- No string that a counted decoder accepts is a beginning of another. -/
theorem decodeCounted_beginning {usizeBits : Nat} {maximum : UInt32}
    {record : Bytes → Nat → Decoded α} {p q : Bytes} {as bs : List α}
    (hp : decodeCounted usizeBits len record p maximum = .ok as)
    (hq : decodeCounted usizeBits len record (p ++ q) maximum = .ok bs) : q = [] := by
  obtain ⟨count, hcount, -⟩ := bind_eq_ok.1 hp
  obtain ⟨count', hcount', -⟩ := bind_eq_ok.1 hq
  obtain ⟨body, rfl, hbody, -⟩ := validateCountedPayload_eq_ok.1 hcount
  obtain ⟨body', hsplit, hbody', -⟩ := validateCountedPayload_eq_ok.1 hcount'
  rw [List.append_assoc, le32_append_inj] at hsplit
  obtain ⟨rfl, rfl⟩ := hsplit
  rw [List.length_append, hbody] at hbody'
  exact List.eq_nil_of_length_eq_zero (by omega)

theorem metadataBatch_strict {usizeBits : Nat} {maximum : UInt32}
    (h : RecordFormat len (fun a bs => encode a = .ok bs) (recordAt len decode))
    (hsafe : ∀ {bs : Bytes}, bs.length = len → Safe (decode bs))
    (hlen : 4 + maximum.toNat * len < 2 ^ usizeBits) :
    StrictCodec (encodeMetadataBatch encode maximum)
      (fun input => decodeCounted usizeBits len (recordAt len decode) input maximum) := by
  have hcodec := metadataBatch_codec h hlen
  have hall : ∀ bs : Bytes, Safe (decodeCounted usizeBits len (recordAt len decode) bs maximum) :=
    fun bs => safe_decodeCounted fun _ => safe_recordAt hsafe
  refine ⟨hcodec, hall, ?_, ?_, ?_⟩
  · intro bs hnot
    exact rejected_of_safe (hall bs) fun b hb => hnot b (hcodec.encode_decode hb)
  · intro as bs hbs n hn
    refine rejected_of_safe (hall _) fun as' hcut => ?_
    have hsame : decodeCounted usizeBits len (recordAt len decode) (bs.take n ++ bs.drop n) maximum =
        .ok as := by
      rw [List.take_append_drop]
      exact hbs
    have hrest := congrArg List.length (decodeCounted_beginning hcut hsame)
    rw [List.length_drop, List.length_nil] at hrest
    omega
  · intro as bs hbs more hmore
    exact rejected_of_safe (hall _) fun as' hlong => hmore (decodeCounted_beginning hbs hlong)

end Batch

theorem gasFormat : RecordFormat gasMetadataRecordLen
    (fun entry bs => GasMetadataRegistration.encode entry = .ok bs)
    (recordAt gasMetadataRecordLen GasMetadataRegistration.decode) :=
  recordAt_format GasMetadataRegistration.length_encode GasMetadataRegistration.decode_eq_ok

theorem reactionFormat : RecordFormat reactionMetadataRecordLen
    (fun entry bs => ReactionMetadataRegistration.encode entry = .ok bs)
    (recordAt reactionMetadataRecordLen ReactionMetadataRegistration.decode) :=
  recordAt_format ReactionMetadataRegistration.length_encode
    ReactionMetadataRegistration.decode_eq_ok

/-- The batches of metadata are decoded to what was encoded, and nothing else is accepted. -/
theorem metadata_codecs (usizeBits : Nat) (h : 32 ≤ usizeBits) :
    StrictCodec encodeGasMetadataBatch (decodeGasMetadataBatch usizeBits) ∧
      StrictCodec encodeReactionMetadataBatch (decodeReactionMetadataBatch usizeBits) := by
  have hbits : 2 ^ 32 ≤ 2 ^ usizeBits := Nat.pow_le_pow_right (by decide) h
  constructor
  · exact metadataBatch_strict gasFormat GasMetadataRegistration.safe_decode
      (Nat.lt_of_lt_of_le (by decide) hbits)
  · exact metadataBatch_strict reactionFormat ReactionMetadataRegistration.safe_decode
      (Nat.lt_of_lt_of_le (by decide) hbits)

theorem metadata_codecs_32 :
    StrictCodec encodeGasMetadataBatch (decodeGasMetadataBatch 32) ∧
      StrictCodec encodeReactionMetadataBatch (decodeReactionMetadataBatch 32) :=
  metadata_codecs 32 (Nat.le_refl 32)

end Dogmos.Wire
