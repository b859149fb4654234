import Dogmos.Wire.States

/-!
# Metadata of gases

The records have one length, whatever the texts and lists in them: a text stands in a field
of its own length with blank bytes behind it, a list of amounts in a field of 32 entries, and
a value that is absent is written as zero and not flagged.

* `textField`, `paddedRecords_eq_ok` — what such a field holds once a decoder accepts it.
* `GasMetadataRegistration.decode_eq_ok` — the decoder of a gas accepts exactly what the encoder
  writes.
-/

namespace Dogmos.Wire

open Bytes

/-! ## Texts and padding -/

def maxMetadataKeyBytes : Nat := 64

def maxMetadataNameBytes : Nat := 128

/-- `as_bytes` of a text. -/
def utf8 (s : String) : Bytes := s.toByteArray.data.toList

/-- `std::str::from_utf8`. -/
def fromUtf8 (bs : Bytes) : Except ProtocolError String :=
  match String.fromUTF8? ⟨bs.toArray⟩ with
  | some s => .ok s
  | none => .error .invalidMetadataUtf8

theorem fromUtf8_eq_ok {bs : Bytes} {s : String} : fromUtf8 bs = .ok s ↔ utf8 s = bs := by
  unfold fromUtf8 utf8 String.fromUTF8?
  constructor
  · intro h
    split at h
    · rename_i s' hs
      cases h
      split at hs
      · cases hs
        rfl
      · cases hs
    · cases h
  · rintro rfl
    have hvalid : (⟨s.toByteArray.data.toList.toArray⟩ : ByteArray).IsValidUTF8 := s.isValidUTF8
    rw [dif_pos hvalid]
    rfl

/-- `validate_string_len`. -/
def validateStringLen (actual maximum : Nat) : Except ProtocolError Unit :=
  failIf (maximum < actual)
    (.metadataStringTooLong (UInt32.ofNat (min actual (2 ^ 32 - 1))) (UInt32.ofNat maximum))

/-- `bounded_bytes`. -/
def boundedBytes (value : String) (maximum : Nat) : Encoded := do
  validateStringLen (utf8 value).length maximum
  pure (utf8 value)

/-- `require_zero` of a range. -/
def requireZero (input : Bytes) (start stop : Nat) : Decoded Unit := do
  rejectIf (isBlank (← slice input start stop) = false) .nonZeroMetadataPadding

/-- The text of a range. -/
def readText (input : Bytes) (start stop : Nat) : Decoded String := do
  lift (fromUtf8 (← slice input start stop))

theorem validateStringLen_eq_ok {actual maximum : Nat} {u : Unit} :
    validateStringLen actual maximum = .ok u ↔ actual ≤ maximum := by
  unfold validateStringLen
  rw [failIf_eq_ok, Nat.not_lt]

theorem boundedBytes_eq_ok {value : String} {maximum : Nat} {bs : Bytes} :
    boundedBytes value maximum = .ok bs ↔ (utf8 value).length ≤ maximum ∧ bs = utf8 value := by
  unfold boundedBytes
  simp only [bind_eq_ok, validateStringLen_eq_ok, pure_eq, Except.ok.injEq]
  constructor
  · rintro ⟨_, hlength, rfl⟩
    exact ⟨hlength, rfl⟩
  · rintro ⟨hlength, rfl⟩
    exact ⟨(), hlength, rfl⟩

section Ranges

variable {p area rest input : Bytes} {start stop : Nat} {u : Unit}

theorem requireZero_skip (rest : Bytes) (h : p.length ≤ start) (hstop : start ≤ stop) :
    requireZero (p ++ rest) start stop = requireZero rest (start - p.length) (stop - p.length) := by
  unfold requireZero
  rw [slice_skip rest h hstop]

theorem readText_skip (rest : Bytes) (h : p.length ≤ start) (hstop : start ≤ stop) :
    readText (p ++ rest) start stop = readText rest (start - p.length) (stop - p.length) := by
  unfold readText
  rw [slice_skip rest h hstop]

theorem slice_front_eq (h : area.length = stop) (hstart : start ≤ stop) :
    slice (ε := ProtocolError) (area ++ rest) start stop = .ok (area.drop start) := by
  rw [slice_front rest (Nat.le_of_eq h.symm), slice, if_pos ⟨hstart, Nat.le_of_eq h.symm⟩,
    List.take_of_length_le]
  rw [List.length_drop, h]

theorem requireZero_eq_ok (h : area.length = stop) (hstart : start ≤ stop) :
    requireZero (area ++ rest) start stop = .ok u ↔ isBlank (area.drop start) = true := by
  unfold requireZero
  rw [slice_front_eq h hstart, bind_ok, rejectIf_eq_ok, Bool.not_eq_false]

theorem readText_eq_ok {s : String} (h : stop ≤ area.length) :
    readText (area ++ rest) 0 stop = .ok s ↔ utf8 s = area.take stop := by
  unfold readText
  rw [slice_front rest h, slice, if_pos ⟨Nat.zero_le _, h⟩, bind_ok, lift_eq_ok, fromUtf8_eq_ok,
    List.drop_zero, Nat.sub_zero]

/-- A text and its padding. -/
theorem textField {s : String} {n len : Nat} (harea : area.length = n) (hlen : len ≤ n) :
    utf8 s = area.take len ∧ isBlank (area.drop len) = true ↔
      len = (utf8 s).length ∧ area = padded n (utf8 s) := by
  rw [eq_padded_iff harea]
  constructor
  · rintro ⟨htext, hblank⟩
    have hlength : len = (utf8 s).length := by
      rw [htext, List.length_take, harea, Nat.min_eq_left hlen]
    rw [← hlength]
    exact ⟨rfl, hlen, htext.symm, hblank⟩
  · rintro ⟨rfl, -, htext, hblank⟩
    exact ⟨htext.symm, hblank⟩

theorem safe_requireZero (hstart : start ≤ stop) (hstop : stop ≤ input.length) :
    Safe (requireZero input start stop) :=
  safe_bind (safe_slice hstart hstop) fun _ _ => safe_rejectIf

theorem safe_readText (hstart : start ≤ stop) (hstop : stop ≤ input.length) :
    Safe (readText input start stop) :=
  safe_bind (safe_slice hstart hstop) fun _ _ => safe_lift _

end Ranges

/-! ## Lists of amounts -/

/-- What `encode_gas_metadata` and `encode_reaction_metadata` write for one gas. -/
def encodeGasAmount (gasId : UInt16) (amount : ScalarValue) : Encoded := do
  let output := put (zeros 16) 0 (le16 gasId)
  pure (put output 4 (← amount.encode))

/-- What the decoders read for one gas. -/
def gasAmountRecord {α : Type} (make : UInt16 → ScalarValue → α) (input : Bytes) (offset : Nat) :
    Decoded α := do
  let low ← readU16 input (offset + 2)
  let high ← readU32 input (offset + 12)
  rejectIf (low ≠ 0 ∨ high ≠ 0) .nonZeroMetadataPadding
  let gasId ← readU16 input offset
  let amount ← readScalar input (offset + 4)
  pure (make gasId amount)

/-- The loop over all `n` entries of a field; those from `count` on have to be blank. -/
def paddedRecords {α : Type} (record : Bytes → Nat → Decoded α) (input : Bytes)
    (start count : Nat) : Nat → Nat → Decoded (List α)
  | _, 0 => .ok []
  | index, n + 1 => do
    let offset := start + index * 16
    if index < count then
      let a ← record input offset
      let rest ← paddedRecords record input start count (index + 1) n
      pure (a :: rest)
    else
      requireZero input offset (offset + 16)
      paddedRecords record input start count (index + 1) n

theorem encodeGasAmount_eq_ok {gasId : UInt16} {amount : ScalarValue} {bs : Bytes} :
    encodeGasAmount gasId amount = .ok bs ↔
      amount.Finite ∧ bs = le16 gasId ++ (le16 0 ++ (amount.bytes ++ le32 0)) := by
  unfold encodeGasAmount
  simp only [bind_eq_ok, ScalarValue.encode_eq_ok, pure_eq, Except.ok.injEq]
  constructor
  · rintro ⟨_, ⟨hamount, rfl⟩, rfl⟩
    refine ⟨hamount, ?_⟩
    simp [put_append, put_zeros, put_zeros_gap, le16_zero, le32_zero]
  · rintro ⟨hamount, rfl⟩
    refine ⟨_, ⟨hamount, rfl⟩, ?_⟩
    simp [put_append, put_zeros, put_zeros_gap, le16_zero, le32_zero]

section Amounts

variable {α : Type} {make : UInt16 → ScalarValue → α} {gasId : α → UInt16} {amount : α → ScalarValue}

/-- A gas with an amount is read as it was written. -/
theorem gasAmountFormat
    (h : ∀ (a : α) (g : UInt16) (s : ScalarValue), make g s = a ↔ gasId a = g ∧ amount a = s) :
    RecordFormat 16 (fun a bs => encodeGasAmount (gasId a) (amount a) = .ok bs)
      (gasAmountRecord make) where
  length := by
    intro a bs hbs
    obtain ⟨-, rfl⟩ := encodeGasAmount_eq_ok.1 hbs
    simp
  decode_iff := by
    intro a bs hlength
    rw [encodeGasAmount_eq_ok]
    obtain ⟨g, bs, rfl, h₁⟩ := exists_le16_append (show 2 ≤ bs.length by omega)
    obtain ⟨low, bs, rfl, h₂⟩ := exists_le16_append (show 2 ≤ bs.length by omega)
    obtain ⟨p, bs, rfl, hp, h₃⟩ := exists_append (show 8 ≤ bs.length by omega)
    obtain ⟨high, bs, rfl, h₄⟩ := exists_le32_append (show 4 ≤ bs.length by omega)
    obtain rfl : bs = [] := List.eq_nil_of_length_eq_zero (by omega)
    unfold gasAmountRecord
    simp only [Nat.zero_add, List.append_nil, readU16_block, readU16_skip, readU32_skip,
      readU32_all, readScalar_skip, readScalar_block _ hp, length_le16, hp, Nat.reduceLeDiff,
      Nat.reduceSub, bind_ok, bind_eq_ok, rejectIf_eq_ok, not_or, not_not,
      ScalarValue.decode_eq_ok hp, pure_eq, Except.ok.injEq, le16_append_inj, h]
    constructor
    · rintro ⟨_, ⟨rfl, rfl⟩, s, ⟨hs, rfl⟩, rfl, rfl⟩
      exact ⟨hs, rfl, rfl, rfl⟩
    · rintro ⟨hs, rfl, rfl, hbytes⟩
      rw [append_inj_iff (by simp [hp]), le32_inj] at hbytes
      obtain ⟨rfl, rfl⟩ := hbytes
      exact ⟨(), ⟨rfl, rfl⟩, _, ⟨hs, rfl⟩, rfl, rfl⟩
  shift := by
    intro bs p rest hlength
    unfold gasAmountRecord
    simp only [readU16_shift, readU16_shift_zero, readU32_shift, readScalar_shift, hlength,
      Nat.reduceLeDiff, Nat.reduceAdd, Nat.zero_add]

theorem safe_gasAmountRecord {input : Bytes} {offset : Nat} (h : offset + 16 ≤ input.length) :
    Safe (gasAmountRecord make input offset) := by
  unfold gasAmountRecord
  refine safe_bind (safe_readU16 (by omega)) fun _ _ => ?_
  refine safe_bind (safe_readU32 (by omega)) fun _ _ => safe_rejectIf_bind fun _ => ?_
  refine safe_bind (safe_readU16 (by omega)) fun _ _ => ?_
  exact safe_bind (safe_readScalar (by omega)) fun _ _ => safe_ok _

variable {carries : α → Bytes → Prop} {record : Bytes → Nat → Decoded α} {start count : Nat}

/-- An area of entries that have all to be blank. -/
theorem paddedRecords_blank {as : List α} :
    ∀ {n index : Nat} {front area : Bytes}, count ≤ index → front.length = start + index * 16 →
      area.length = n * 16 →
      (paddedRecords record (front ++ area) start count index n = .ok as ↔
        as = [] ∧ isBlank area = true)
  | 0, index, front, area, _, _, harea => by
    obtain rfl : area = [] := List.eq_nil_of_length_eq_zero (by simpa using harea)
    simp [paddedRecords, isBlank, eq_comm]
  | n + 1, index, front, area, hindex, hfront, harea => by
    rw [Nat.succ_mul] at harea
    obtain ⟨entry, more, rfl, hentry, hmore⟩ := exists_append (show 16 ≤ area.length by omega)
    have hzero : ∀ u : Unit, requireZero (front ++ (entry ++ more)) (start + index * 16)
        (start + index * 16 + 16) = .ok u ↔ isBlank entry = true := by
      intro u
      rw [← hfront, requireZero_skip _ (Nat.le_refl _) (Nat.le_add_right ..), Nat.sub_self,
        Nat.add_sub_cancel_left, requireZero_eq_ok hentry (Nat.zero_le _), List.drop_zero]
    have hnext : paddedRecords record (front ++ (entry ++ more)) start count (index + 1) n = .ok as ↔
        as = [] ∧ isBlank more = true := by
      rw [← List.append_assoc front]
      exact paddedRecords_blank (by omega)
        (by rw [List.length_append, hfront, hentry, Nat.succ_mul, Nat.add_assoc]) (by omega)
    unfold paddedRecords
    simp only [if_neg (Nat.not_lt.2 hindex), bind_eq_ok, hzero, hnext, isBlank_append,
      Bool.and_eq_true]
    constructor
    · rintro ⟨_, hentry, rfl, hmore⟩
      exact ⟨rfl, hentry, hmore⟩
    · rintro ⟨rfl, hentry, hmore⟩
      exact ⟨(), hentry, rfl, hmore⟩

/-- A list and its padding. -/
theorem paddedRecords_eq_ok (h : RecordFormat 16 carries record) :
    ∀ {n index : Nat} {front area : Bytes} {as : List α}, count ≤ index + n →
      front.length = start + index * 16 → area.length = n * 16 →
      (paddedRecords record (front ++ area) start count index n = .ok as ↔
        as.length = count - index ∧
          ∃ body : Bytes, CarriesAll carries as body ∧ area = padded (n * 16) body)
  | 0, index, front, area, as, hcount, _, harea => by
    obtain rfl : area = [] := List.eq_nil_of_length_eq_zero (by simpa using harea)
    have hdone : count - index = 0 := by omega
    rw [hdone, List.length_eq_zero_iff, paddedRecords, Except.ok.injEq]
    constructor
    · rintro rfl
      exact ⟨rfl, [], rfl, rfl⟩
    · rintro ⟨rfl, -⟩
      rfl
  | n + 1, index, front, area, as, hcount, hfront, harea => by
    by_cases hindex : index < count
    · have hwidth : (n + 1) * 16 = n * 16 + 16 := Nat.succ_mul ..
      obtain ⟨entry, more, rfl, hentry, hmore⟩ := exists_append (show 16 ≤ area.length by omega)
      have hfirst : record (front ++ (entry ++ more)) (start + index * 16) = record entry 0 := by
        rw [← hfront, h.shift front more hentry]
      have hnext : ∀ rest,
          paddedRecords record (front ++ (entry ++ more)) start count (index + 1) n = .ok rest ↔
            rest.length = count - (index + 1) ∧
              ∃ body : Bytes, CarriesAll carries rest body ∧ more = padded (n * 16) body := by
        intro rest
        rw [← List.append_assoc front]
        exact paddedRecords_eq_ok h (by omega)
          (by rw [List.length_append, hfront, hentry, Nat.succ_mul, Nat.add_assoc]) (by omega)
      unfold paddedRecords
      simp only [if_pos hindex, bind_eq_ok, hfirst, hnext, h.decode_iff hentry, pure_eq,
        Except.ok.injEq]
      constructor
      · rintro ⟨a, ha, rest, ⟨hlength, body, hbody, rfl⟩, rfl⟩
        refine ⟨by rw [List.length_cons, hlength]; omega, entry ++ body, ⟨entry, body, rfl, ha, hbody⟩,
          ?_⟩
        rw [padded, padded, List.append_assoc, List.length_append, hentry, hwidth]
        congr 3
        omega
      · rintro ⟨hlength, body, hbody, hpadded⟩
        cases as with
        | nil =>
          rw [List.length_nil] at hlength
          omega
        | cons a rest =>
          obtain ⟨r, more', rfl, hr, hrest⟩ := hbody
          have hlen := h.length hr
          rw [padded, List.append_assoc, append_inj_iff (by rw [hentry, hlen])] at hpadded
          obtain ⟨rfl, rfl⟩ := hpadded
          refine ⟨a, hr, rest, ⟨by rw [List.length_cons] at hlength; omega, more', hrest, ?_⟩, rfl⟩
          rw [padded, List.length_append, hlen, hwidth]
          congr 2
          omega
    · have hdone : count - index = 0 := by omega
      rw [paddedRecords_blank (Nat.not_lt.1 hindex) hfront harea, hdone, List.length_eq_zero_iff,
        isBlank_iff, harea]
      constructor
      · rintro ⟨rfl, hblank⟩
        exact ⟨rfl, [], rfl, hblank⟩
      · rintro ⟨rfl, body, hbody, hblank⟩
        obtain rfl : body = [] := hbody
        exact ⟨rfl, hblank⟩

theorem safe_paddedRecords {input : Bytes}
    (h : ∀ offset, offset + 16 ≤ input.length → Safe (record input offset)) :
    ∀ {n index : Nat}, start + (index + n) * 16 ≤ input.length →
      Safe (paddedRecords record input start count index n)
  | 0, _, _ => safe_ok []
  | n + 1, index, hfits => by
    have hnext : start + (index + 1 + n) * 16 ≤ input.length := by omega
    unfold paddedRecords
    dsimp only
    split
    · refine safe_bind (h _ (by omega)) fun a _ => ?_
      exact safe_bind (safe_paddedRecords h hnext) fun rest _ => safe_ok _
    · refine safe_bind (safe_requireZero (Nat.le_add_right ..) (by omega)) fun _ _ => ?_
      exact safe_paddedRecords h hnext

end Amounts

/-! ## Rows of numbers -/

/-- `decode_scalars`. -/
def decodeScalars (count : Nat) (input : Bytes) (start : Nat) :
    Decoded (Vector ScalarValue count) :=
  recordVector (fun index => readScalar input (start + index * 8)) count

theorem decodeScalars_eq_ok {count start : Nat} {front row : Bytes} (rest : Bytes)
    {values : Vector ScalarValue count} (hfront : front.length = start)
    (hrow : row.length = count * 8) :
    decodeScalars count (front ++ (row ++ rest)) start = .ok values ↔
      CarriesAll ScalarCarries values.toList row := by
  unfold decodeScalars
  rw [recordVector_iff_records, scalarFormat.records_iff rest 0 front hrow (by rw [hfront]; simp)]
  simp

/-- A number of a row that has to be zero. -/
theorem requireZero_slot {count i : Nat} {v : Vector ScalarValue count} {row : Bytes} {u : Unit}
    (rest : Bytes) (h : CarriesAll ScalarCarries v.toList row) (hi : i < count) :
    requireZero (row ++ rest) (i * 8) (i * 8 + 8) = .ok u ↔ v[i] = .zero := by
  obtain ⟨p, r, q, rfl, hp, hr⟩ := scalarFormat.exists_at h (by rwa [Vector.length_toList])
  rw [Vector.getElem_toList] at hr
  obtain ⟨hfinite, rfl⟩ := hr
  rw [List.append_assoc, requireZero_skip _ (Nat.le_of_eq hp) (Nat.le_add_right ..), hp,
    Nat.sub_self, Nat.add_sub_cancel_left, List.append_assoc, requireZero_eq_ok (by simp) (by simp)]
  simp [ScalarValue.isBlank_bytes hfinite]

theorem safe_decodeScalars {count start : Nat} {input : Bytes}
    (h : start + count * 8 ≤ input.length) : Safe (decodeScalars count input start) :=
  safe_recordVector fun i hi => safe_readScalar (by omega)

/-! ## Gases -/

/-- `WireGasFireRole`. -/
inductive WireGasFireRole where
  | none
  | oxidizer (minimumTemperature power : ScalarValue)
  | fuel (minimumTemperature burnRate : ScalarValue)
deriving DecidableEq

/-- `WireGasProduct`. -/
structure WireGasProduct where
  gasId : UInt16
  ratio : ScalarValue
deriving DecidableEq

/-- `WireFireProducts`. -/
inductive WireFireProducts where
  | generic (products : List WireGasProduct)
  | plasma
deriving DecidableEq

/-- `GasMetadataRegistration`. -/
structure GasMetadataRegistration where
  id : UInt16
  key : String
  name : String
  flags : UInt32
  specificHeat : ScalarValue
  fusionPower : ScalarValue
  molesVisible : Option ScalarValue
  enthalpy : ScalarValue
  fireRadiationReleased : ScalarValue
  fireRole : WireGasFireRole
  fireProducts : Option WireFireProducts
deriving DecidableEq

def gasMetadataRecordLen : Nat := 784

namespace WireGasFireRole

/-- The word of a role. -/
def kind : WireGasFireRole → UInt16
  | .none => 0
  | .oxidizer _ _ => 1
  | .fuel _ _ => 2

/-- The numbers of a role. -/
def values : WireGasFireRole → ScalarValue × ScalarValue
  | .none => (.zero, .zero)
  | .oxidizer minimumTemperature power => (minimumTemperature, power)
  | .fuel minimumTemperature burnRate => (minimumTemperature, burnRate)

end WireGasFireRole

/-- The word of the products of a fire. -/
def productKind : Option WireFireProducts → UInt32
  | none => 0
  | some (.generic _) => 1
  | some .plasma => 2

/-- The products that are written one by one. -/
def listedProducts : Option WireFireProducts → List WireGasProduct
  | some (.generic products) => products
  | _ => []

/-- The numbers of a gas in the order of the record. -/
def GasMetadataRegistration.scalars (entry : GasMetadataRegistration) : List ScalarValue :=
  [entry.specificHeat, entry.fusionPower, entry.molesVisible.getD .zero, entry.enthalpy,
    entry.fireRadiationReleased, entry.fireRole.values.1, entry.fireRole.values.2]

/-- `encode_gas_metadata`. -/
def GasMetadataRegistration.encode (entry : GasMetadataRegistration) : Encoded := do
  let key ← boundedBytes entry.key maxMetadataKeyBytes
  let name ← boundedBytes entry.name maxMetadataNameBytes
  let products := listedProducts entry.fireProducts
  failIf (wireGasSlots < products.length)
    (.operationCountExceeded (UInt32.ofNat (min products.length (2 ^ 32 - 1)))
      (UInt32.ofNat wireGasSlots))
  let output := zeros gasMetadataRecordLen
  let output := put output 0 (le16 entry.id)
  let output := put output 2 (le16 (UInt16.ofNat key.length))
  let output := put output 4 (le16 (UInt16.ofNat name.length))
  let output := put output 6 (le16 entry.fireRole.kind)
  let output := put output 8 (le32 entry.flags)
  let output := put output 12 (le32 (productKind entry.fireProducts))
  let output := put output 16 (le32 (UInt32.ofNat products.length))
  let output := put output 20 (le32 (boolWord entry.molesVisible.isSome))
  let output := put output 24 (← encodeAll ScalarValue.encode entry.scalars)
  let output := put output 80 key
  let output := put output 144 name
  pure (put output 272
    (← encodeAll (fun product => encodeGasAmount product.gasId product.ratio) products))

/-- The role of a gas, from its word and its numbers. -/
def decodeFireRole (input : Bytes) (scalars : Vector ScalarValue 7) : Decoded WireGasFireRole := do
  let kind ← readU16 input 6
  if kind = 0 then
    requireZero input 64 80
    pure .none
  else if kind = 1 then pure (.oxidizer scalars[5] scalars[6])
  else if kind = 2 then pure (.fuel scalars[5] scalars[6])
  else reject (.unknownGasFireRole kind)

/-- The products of a fire, from their word and the list. -/
def decodeFireProducts (kind : UInt32) (products : List WireGasProduct) :
    Except ProtocolError (Option WireFireProducts) :=
  if kind = 0 ∧ products.isEmpty then .ok none
  else if kind = 1 then .ok (some (.generic products))
  else if kind = 2 ∧ products.isEmpty then .ok (some .plasma)
  else .error (.unknownFireProducts kind)

/-- `decode_gas_metadata`. -/
def GasMetadataRegistration.decode (input : Bytes) : Decoded GasMetadataRegistration := do
  let keyLen := (← readU16 input 2).toNat
  let nameLen := (← readU16 input 4).toNat
  lift (validateStringLen keyLen maxMetadataKeyBytes)
  lift (validateStringLen nameLen maxMetadataNameBytes)
  let productCount ← readU32 input 16
  rejectIf (UInt32.ofNat wireGasSlots < productCount)
    (.operationCountExceeded productCount (UInt32.ofNat wireGasSlots))
  let metadataFlags ← readU32 input 20
  rejectIf (metadataFlags &&& ~~~1 ≠ 0) (.unknownMetadataFlags metadataFlags)
  requireZero input (80 + keyLen) 144
  requireZero input (144 + nameLen) 272
  let key ← readText input 80 (80 + keyLen)
  let name ← readText input 144 (144 + nameLen)
  let scalars ← decodeScalars 7 input 24
  whenever (metadataFlags &&& 1 = 0) (requireZero input 40 48)
  let fireRole ← decodeFireRole input scalars
  let products ← paddedRecords (gasAmountRecord WireGasProduct.mk) input 272 productCount.toNat 0
    wireGasSlots
  let fireProducts ← lift (decodeFireProducts (← readU32 input 12) products)
  let id ← readU16 input 0
  let flags ← readU32 input 8
  pure {
    id, key, name, flags
    specificHeat := scalars[0]
    fusionPower := scalars[1]
    molesVisible := if metadataFlags &&& 1 ≠ 0 then some scalars[2] else none
    enthalpy := scalars[3]
    fireRadiationReleased := scalars[4]
    fireRole, fireProducts }

/-! ### What a gas record is -/

/-- A gas record, field by field. -/
def gasBytes (id keyLen nameLen kind : UInt16) (flags fire count present : UInt32)
    (row key name area : Bytes) : Bytes :=
  le16 id ++ (le16 keyLen ++ (le16 nameLen ++ (le16 kind ++ (le32 flags ++ (le32 fire ++
    (le32 count ++ (le32 present ++ (row ++ (key ++ (name ++ area))))))))))

/-- The bytes of a gas. -/
structure GasMetadataRegistration.Carries (entry : GasMetadataRegistration) (bs : Bytes) : Prop where
  key : (utf8 entry.key).length ≤ maxMetadataKeyBytes
  name : (utf8 entry.name).length ≤ maxMetadataNameBytes
  products : (listedProducts entry.fireProducts).length ≤ wireGasSlots
  layout : ∃ row body : Bytes, CarriesAll ScalarCarries entry.scalars row ∧
    CarriesAll (fun product r => encodeGasAmount product.gasId product.ratio = .ok r)
      (listedProducts entry.fireProducts) body ∧
    bs = gasBytes entry.id (UInt16.ofNat (utf8 entry.key).length)
      (UInt16.ofNat (utf8 entry.name).length) entry.fireRole.kind entry.flags
      (productKind entry.fireProducts)
      (UInt32.ofNat (listedProducts entry.fireProducts).length)
      (boolWord entry.molesVisible.isSome) row (padded maxMetadataKeyBytes (utf8 entry.key))
      (padded maxMetadataNameBytes (utf8 entry.name)) (padded (wireGasSlots * 16) body)

theorem productFormat : RecordFormat 16
    (fun (product : WireGasProduct) bs => encodeGasAmount product.gasId product.ratio = .ok bs)
    (gasAmountRecord WireGasProduct.mk) :=
  gasAmountFormat fun a g s => by
    cases a
    simp [eq_comm]

/-- The writes of `encode_gas_metadata`, from front to back. -/
theorem gas_writes {row body key name : Bytes} (hrow : row.length = 56) (hkey : key.length ≤ 64)
    (hname : name.length ≤ 128) (hbody : body.length ≤ 512) (a b c d : UInt16) (e f g h : UInt32) :
    put (put (put (put (put (put (put (put (put (put (put (put (zeros 784) 0 (le16 a)) 2 (le16 b))
      4 (le16 c)) 6 (le16 d)) 8 (le32 e)) 12 (le32 f)) 16 (le32 g)) 20 (le32 h)) 24 row) 80 key)
      144 name) 272 body =
    gasBytes a b c d e f g h row (padded 64 key) (padded 128 name) (padded 512 body) := by
  simp [gasBytes, put_append, put_zeros, hrow, put_padded hkey, put_padded hname, put_padded hbody,
    length_padded hkey, length_padded hname]

theorem GasMetadataRegistration.encode_eq_ok {entry : GasMetadataRegistration} {bs : Bytes} :
    entry.encode = .ok bs ↔ entry.Carries bs := by
  have hwrites : ∀ {row body : Bytes}, (utf8 entry.key).length ≤ maxMetadataKeyBytes →
      (utf8 entry.name).length ≤ maxMetadataNameBytes →
      (listedProducts entry.fireProducts).length ≤ wireGasSlots →
      CarriesAll ScalarCarries entry.scalars row →
      CarriesAll (fun product r => encodeGasAmount product.gasId product.ratio = .ok r)
        (listedProducts entry.fireProducts) body → _ :=
    fun {row body} hkey hname hproducts hrow hbody =>
      gas_writes (scalarFormat.length_all hrow) hkey hname (by
        rw [productFormat.length_all hbody]
        exact Nat.mul_le_mul_right 16 hproducts) entry.id
        (UInt16.ofNat (utf8 entry.key).length) (UInt16.ofNat (utf8 entry.name).length)
        entry.fireRole.kind entry.flags (productKind entry.fireProducts)
        (UInt32.ofNat (listedProducts entry.fireProducts).length)
        (boolWord entry.molesVisible.isSome)
  unfold GasMetadataRegistration.encode
  simp only [bind_eq_ok, boundedBytes_eq_ok, failIf_eq_ok, Nat.not_lt, encodeAll_scalars, pure_eq,
    Except.ok.injEq]
  simp only [encodeAll_eq_ok]
  constructor
  · rintro ⟨_, ⟨hkey, rfl⟩, _, ⟨hname, rfl⟩, _, hproducts, row, hrow, body, hbody, rfl⟩
    exact ⟨hkey, hname, hproducts, row, body, hrow, hbody,
      hwrites hkey hname hproducts hrow hbody⟩
  · rintro ⟨hkey, hname, hproducts, row, body, hrow, hbody, rfl⟩
    exact ⟨_, ⟨hkey, rfl⟩, _, ⟨hname, rfl⟩, (), hproducts, row, hrow, body, hbody,
      hwrites hkey hname hproducts hrow hbody⟩

/-- The numbers of a row of seven. -/
theorem carriesAll_seven {v : Vector ScalarValue 7} {row : Bytes}
    (h : CarriesAll ScalarCarries v.toList row) :
    (v[5].Finite ∧ v[6].Finite) ∧
      row = v[0].bytes ++ (v[1].bytes ++ (v[2].bytes ++ (v[3].bytes ++ (v[4].bytes ++
        (v[5].bytes ++ v[6].bytes))))) := by
  obtain ⟨⟨list⟩, hsize⟩ := v
  match list, hsize with
  | [a, b, c, d, e, f, g], _ =>
    obtain ⟨_, _, rfl, ⟨-, rfl⟩, _, _, rfl, ⟨-, rfl⟩, _, _, rfl, ⟨-, rfl⟩, _, _, rfl, ⟨-, rfl⟩,
      _, _, rfl, ⟨-, rfl⟩, _, _, rfl, ⟨hf, rfl⟩, _, _, rfl, ⟨hg, rfl⟩, rfl⟩ := h
    rw [List.append_nil]
    exact ⟨⟨hf, hg⟩, rfl⟩

theorem requireZero_fireValues {v : Vector ScalarValue 7} {row : Bytes} {u : Unit} (rest : Bytes)
    (h : CarriesAll ScalarCarries v.toList row) :
    requireZero (row ++ rest) 40 56 = .ok u ↔ v[5] = .zero ∧ v[6] = .zero := by
  obtain ⟨⟨hfive, hsix⟩, rfl⟩ := carriesAll_seven h
  have hfront : (v[0].bytes ++ (v[1].bytes ++ (v[2].bytes ++ (v[3].bytes ++ v[4].bytes)))).length =
      40 := by simp
  have hsplit : v[0].bytes ++ (v[1].bytes ++ (v[2].bytes ++ (v[3].bytes ++ (v[4].bytes ++
      (v[5].bytes ++ v[6].bytes))))) ++ rest =
      (v[0].bytes ++ (v[1].bytes ++ (v[2].bytes ++ (v[3].bytes ++ v[4].bytes)))) ++
        ((v[5].bytes ++ v[6].bytes) ++ rest) := by
    simp only [List.append_assoc]
  rw [hsplit, requireZero_skip _ (Nat.le_of_eq hfront) (by decide), hfront,
    requireZero_eq_ok (by simp) (by decide)]
  simp [ScalarValue.isBlank_bytes hfive, ScalarValue.isBlank_bytes hsix]

theorem decodeFireRole_eq_ok {input : Bytes} {scalars : Vector ScalarValue 7} {kind : UInt16}
    {role : WireGasFireRole} (hkind : readU16 (ε := ProtocolError) input 6 = .ok kind)
    (hzero : ∀ u, requireZero input 64 80 = .ok u ↔ scalars[5] = .zero ∧ scalars[6] = .zero) :
    decodeFireRole input scalars = .ok role ↔
      role.kind = kind ∧ role.values = (scalars[5], scalars[6]) := by
  unfold decodeFireRole
  rw [hkind, bind_ok]
  split
  · subst kind
    simp only [bind_eq_ok, hzero, pure_eq, Except.ok.injEq]
    constructor
    · rintro ⟨_, ⟨h5, h6⟩, rfl⟩
      exact ⟨rfl, by rw [h5, h6]; rfl⟩
    · rintro ⟨hrole, hvalues⟩
      cases role with
      | none =>
        simp only [WireGasFireRole.values, Prod.mk.injEq] at hvalues
        exact ⟨(), ⟨hvalues.1.symm, hvalues.2.symm⟩, rfl⟩
      | oxidizer => simp [WireGasFireRole.kind] at hrole
      | fuel => simp [WireGasFireRole.kind] at hrole
  split
  · subst kind
    cases role <;> simp [WireGasFireRole.kind, WireGasFireRole.values, eq_comm]
  split
  · subst kind
    cases role <;> simp [WireGasFireRole.kind, WireGasFireRole.values, eq_comm]
  · cases role <;> simp_all [WireGasFireRole.kind, reject, eq_comm]

theorem decodeFireProducts_eq_ok {kind : UInt32} {products : List WireGasProduct}
    {fire : Option WireFireProducts} :
    decodeFireProducts kind products = .ok fire ↔
      productKind fire = kind ∧ listedProducts fire = products := by
  unfold decodeFireProducts
  simp only [List.isEmpty_iff]
  split
  · rename_i hnone
    obtain ⟨rfl, rfl⟩ := hnone
    rcases fire with _ | listed | _ <;> simp [productKind, listedProducts]
  split
  · subst kind
    rcases fire with _ | listed | _ <;> simp [productKind, listedProducts, eq_comm]
  split
  · rename_i hplasma
    obtain ⟨rfl, rfl⟩ := hplasma
    rcases fire with _ | listed | _ <;> simp [productKind, listedProducts]
  · rcases fire with _ | listed | _ <;> simp_all [productKind, listedProducts, eq_comm]

/-- An optional number, whether it is there, and its field. -/
theorem optional_eq {present : Bool} {value : ScalarValue} {o : Option ScalarValue} :
    (present = false → value = .zero) ∧ (if present then some value else none) = o ↔
      o.isSome = present ∧ o.getD .zero = value := by
  cases present <;> cases o <;> simp [eq_comm]

/-- The flags of a gas hold one boolean. -/
theorem exists_boolWord {flags : UInt32} (h : flags &&& ~~~1 = 0) :
    ∃ present : Bool, flags = boolWord present := by
  have hlt : flags.toNat < 2 ^ 1 := toNat_lt_of_mask rfl h
  have hcases : flags.toNat = 0 ∨ flags.toNat = 1 := by omega
  rcases hcases with hflags | hflags
  · exact ⟨false, UInt32.toNat_inj.1 hflags⟩
  · exact ⟨true, UInt32.toNat_inj.1 hflags⟩

@[simp] theorem boolWord_masked (present : Bool) : boolWord present &&& ~~~1 = 0 := by
  cases present <;> decide

@[simp] theorem boolWord_and_one {present : Bool} : boolWord present &&& 1 = 0 ↔ present = false := by
  cases present <;> decide

/-- A string of the length of a gas, split into its fields. -/
theorem exists_gas_fields {bs : Bytes} (h : bs.length = gasMetadataRecordLen) :
    ∃ (id keyLen nameLen kind : UInt16) (flags fire count present : UInt32)
      (row key name area : Bytes),
      bs = gasBytes id keyLen nameLen kind flags fire count present row key name area ∧
        row.length = 7 * 8 ∧ key.length = maxMetadataKeyBytes ∧
          name.length = maxMetadataNameBytes ∧ area.length = wireGasSlots * 16 := by
  unfold gasMetadataRecordLen at h
  unfold maxMetadataKeyBytes maxMetadataNameBytes wireGasSlots
  obtain ⟨id, bs, rfl, h₁⟩ := exists_le16_append (show 2 ≤ bs.length by omega)
  obtain ⟨keyLen, bs, rfl, h₂⟩ := exists_le16_append (show 2 ≤ bs.length by omega)
  obtain ⟨nameLen, bs, rfl, h₃⟩ := exists_le16_append (show 2 ≤ bs.length by omega)
  obtain ⟨kind, bs, rfl, h₄⟩ := exists_le16_append (show 2 ≤ bs.length by omega)
  obtain ⟨flags, bs, rfl, h₅⟩ := exists_le32_append (show 4 ≤ bs.length by omega)
  obtain ⟨fire, bs, rfl, h₆⟩ := exists_le32_append (show 4 ≤ bs.length by omega)
  obtain ⟨count, bs, rfl, h₇⟩ := exists_le32_append (show 4 ≤ bs.length by omega)
  obtain ⟨present, bs, rfl, h₈⟩ := exists_le32_append (show 4 ≤ bs.length by omega)
  obtain ⟨row, bs, rfl, hrow, h₉⟩ := exists_append (show 56 ≤ bs.length by omega)
  obtain ⟨key, bs, rfl, hkey, h₁₀⟩ := exists_append (show 64 ≤ bs.length by omega)
  obtain ⟨name, area, rfl, hname, h₁₁⟩ := exists_append (show 128 ≤ bs.length by omega)
  exact ⟨id, keyLen, nameLen, kind, flags, fire, count, present, row, key, name, area, rfl, hrow,
    hkey, hname, by omega⟩

section Gas

variable {id keyLen nameLen kind : UInt16} {flags fire count present : UInt32}
  {row key name area : Bytes}

theorem gas_scalars {v : Vector ScalarValue 7} (hrow : row.length = 7 * 8) :
    decodeScalars 7 (gasBytes id keyLen nameLen kind flags fire count present row key name area) 24 =
      .ok v ↔ CarriesAll ScalarCarries v.toList row := by
  have hread := @decodeScalars_eq_ok 7 24
    (le16 id ++ (le16 keyLen ++ (le16 nameLen ++ (le16 kind ++ (le32 flags ++ (le32 fire ++
      (le32 count ++ le32 present))))))) row (key ++ (name ++ area)) v (by simp) hrow
  simpa only [gasBytes, List.append_assoc] using hread

theorem gas_products {products : List WireGasProduct} (hrow : row.length = 7 * 8)
    (hkey : key.length = maxMetadataKeyBytes) (hname : name.length = maxMetadataNameBytes)
    (harea : area.length = wireGasSlots * 16) (hcount : count.toNat ≤ wireGasSlots) :
    paddedRecords (gasAmountRecord WireGasProduct.mk)
        (gasBytes id keyLen nameLen kind flags fire count present row key name area) 272 count.toNat
        0 wireGasSlots = .ok products ↔
      products.length = count.toNat ∧ ∃ body : Bytes,
        CarriesAll (fun product r => encodeGasAmount product.gasId product.ratio = .ok r)
          products body ∧ area = padded (wireGasSlots * 16) body := by
  have hread := @paddedRecords_eq_ok _ _ _ 272 count.toNat productFormat wireGasSlots 0
    (le16 id ++ (le16 keyLen ++ (le16 nameLen ++ (le16 kind ++ (le32 flags ++ (le32 fire ++
      (le32 count ++ (le32 present ++ (row ++ (key ++ name)))))))))) area products
    (by omega) (by simp [hrow, hkey, hname, maxMetadataKeyBytes, maxMetadataNameBytes]) harea
  simpa only [gasBytes, List.append_assoc, Nat.sub_zero] using hread

/-- The words of a gas record. -/
theorem gas_words :
    (readU16 (gasBytes id keyLen nameLen kind flags fire count present row key name area) 0 =
        (.ok id : Decoded UInt16) ∧
      readU16 (gasBytes id keyLen nameLen kind flags fire count present row key name area) 2 =
        (.ok keyLen : Decoded UInt16) ∧
      readU16 (gasBytes id keyLen nameLen kind flags fire count present row key name area) 4 =
        (.ok nameLen : Decoded UInt16) ∧
      readU16 (gasBytes id keyLen nameLen kind flags fire count present row key name area) 6 =
        (.ok kind : Decoded UInt16)) ∧
    readU32 (gasBytes id keyLen nameLen kind flags fire count present row key name area) 8 =
        (.ok flags : Decoded UInt32) ∧
      readU32 (gasBytes id keyLen nameLen kind flags fire count present row key name area) 12 =
        (.ok fire : Decoded UInt32) ∧
      readU32 (gasBytes id keyLen nameLen kind flags fire count present row key name area) 16 =
        (.ok count : Decoded UInt32) ∧
      readU32 (gasBytes id keyLen nameLen kind flags fire count present row key name area) 20 =
        (.ok present : Decoded UInt32) := by
  simp [gasBytes, readU16_skip, readU32_skip]

/-- The key of a gas record. -/
theorem gas_key {n : Nat} (hrow : row.length = 7 * 8) (hkey : key.length = maxMetadataKeyBytes)
    (hn : n ≤ maxMetadataKeyBytes) :
    (∀ u, requireZero (gasBytes id keyLen nameLen kind flags fire count present row key name area)
        (80 + n) 144 = .ok u ↔ isBlank (key.drop n) = true) ∧
      ∀ s, readText (gasBytes id keyLen nameLen kind flags fire count present row key name area) 80
        (80 + n) = .ok s ↔ utf8 s = key.take n := by
  unfold maxMetadataKeyBytes at hkey hn
  have hfront : (le16 id ++ (le16 keyLen ++ (le16 nameLen ++ (le16 kind ++ (le32 flags ++
      (le32 fire ++ (le32 count ++ (le32 present ++ row)))))))).length = 80 := by simp [hrow]
  have hsplit : gasBytes id keyLen nameLen kind flags fire count present row key name area =
      (le16 id ++ (le16 keyLen ++ (le16 nameLen ++ (le16 kind ++ (le32 flags ++ (le32 fire ++
        (le32 count ++ (le32 present ++ row)))))))) ++ (key ++ (name ++ area)) := by
    simp only [gasBytes, List.append_assoc]
  rw [hsplit]
  constructor
  · intro u
    rw [requireZero_skip _ (by omega) (by omega), hfront, Nat.add_sub_cancel_left,
      requireZero_eq_ok (by omega) (by omega)]
  · intro s
    rw [readText_skip _ (by omega) (by omega), hfront, Nat.add_sub_cancel_left, Nat.sub_self,
      readText_eq_ok (by omega)]

/-- The name of a gas record. -/
theorem gas_name {n : Nat} (hrow : row.length = 7 * 8) (hkey : key.length = maxMetadataKeyBytes)
    (hname : name.length = maxMetadataNameBytes) (hn : n ≤ maxMetadataNameBytes) :
    (∀ u, requireZero (gasBytes id keyLen nameLen kind flags fire count present row key name area)
        (144 + n) 272 = .ok u ↔ isBlank (name.drop n) = true) ∧
      ∀ s, readText (gasBytes id keyLen nameLen kind flags fire count present row key name area) 144
        (144 + n) = .ok s ↔ utf8 s = name.take n := by
  unfold maxMetadataKeyBytes at hkey
  unfold maxMetadataNameBytes at hname hn
  have hfront : (le16 id ++ (le16 keyLen ++ (le16 nameLen ++ (le16 kind ++ (le32 flags ++
      (le32 fire ++ (le32 count ++ (le32 present ++ (row ++ key))))))))).length = 144 := by
    simp [hrow, hkey]
  have hsplit : gasBytes id keyLen nameLen kind flags fire count present row key name area =
      (le16 id ++ (le16 keyLen ++ (le16 nameLen ++ (le16 kind ++ (le32 flags ++ (le32 fire ++
        (le32 count ++ (le32 present ++ (row ++ key))))))))) ++ (name ++ area) := by
    simp only [gasBytes, List.append_assoc]
  rw [hsplit]
  constructor
  · intro u
    rw [requireZero_skip _ (by omega) (by omega), hfront, Nat.add_sub_cancel_left,
      requireZero_eq_ok (by omega) (by omega)]
  · intro s
    rw [readText_skip _ (by omega) (by omega), hfront, Nat.add_sub_cancel_left, Nat.sub_self,
      readText_eq_ok (by omega)]

/-- The numbers of a gas record that may have to be zero. -/
theorem gas_zeros {v : Vector ScalarValue 7} (h : CarriesAll ScalarCarries v.toList row) :
    (∀ u, requireZero (gasBytes id keyLen nameLen kind flags fire count present row key name area)
        40 48 = .ok u ↔ v[2] = .zero) ∧
      ∀ u, requireZero (gasBytes id keyLen nameLen kind flags fire count present row key name area)
        64 80 = .ok u ↔ v[5] = .zero ∧ v[6] = .zero := by
  have hfront : (le16 id ++ (le16 keyLen ++ (le16 nameLen ++ (le16 kind ++ (le32 flags ++
      (le32 fire ++ (le32 count ++ le32 present))))))).length = 24 := by simp
  have hsplit : gasBytes id keyLen nameLen kind flags fire count present row key name area =
      (le16 id ++ (le16 keyLen ++ (le16 nameLen ++ (le16 kind ++ (le32 flags ++ (le32 fire ++
        (le32 count ++ le32 present))))))) ++ (row ++ (key ++ (name ++ area))) := by
    simp only [gasBytes, List.append_assoc]
  rw [hsplit]
  constructor
  · intro u
    rw [requireZero_skip _ (by omega) (by omega), hfront]
    exact requireZero_slot _ h (show 2 < 7 by decide)
  · intro u
    rw [requireZero_skip _ (by omega) (by omega), hfront]
    exact requireZero_fireValues _ h

/-- The fields of two gas records agree where the records do. -/
theorem gasBytes_inj {id' keyLen' nameLen' kind' : UInt16} {flags' fire' count' present' : UInt32}
    {row' key' name' area' : Bytes} (hrow : row.length = row'.length)
    (hkey : key.length = key'.length) (hname : name.length = name'.length) :
    gasBytes id keyLen nameLen kind flags fire count present row key name area =
        gasBytes id' keyLen' nameLen' kind' flags' fire' count' present' row' key' name' area' ↔
      (id = id' ∧ keyLen = keyLen' ∧ nameLen = nameLen' ∧ kind = kind') ∧
        (flags = flags' ∧ fire = fire' ∧ count = count' ∧ present = present') ∧
        row = row' ∧ key = key' ∧ name = name' ∧ area = area' := by
  unfold gasBytes
  simp only [le16_append_inj, le32_append_inj, append_inj_iff hrow, append_inj_iff hkey,
    append_inj_iff hname]
  constructor
  · rintro ⟨rfl, rfl, rfl, rfl, rfl, rfl, rfl, rfl, rfl, rfl, rfl, rfl⟩
    simp
  · rintro ⟨⟨rfl, rfl, rfl, rfl⟩, ⟨rfl, rfl, rfl, rfl⟩, rfl, rfl, rfl, rfl⟩
    simp

theorem not_slots_lt {count : UInt32} :
    ¬UInt32.ofNat wireGasSlots < count ↔ count.toNat ≤ wireGasSlots := by
  rw [UInt32.not_lt, UInt32.le_iff_toNat_le]
  exact Iff.rfl

theorem toList_seven (v : Vector ScalarValue 7) :
    v.toList = [v[0], v[1], v[2], v[3], v[4], v[5], v[6]] := by
  obtain ⟨⟨list⟩, hsize⟩ := v
  match list, hsize with
  | [a, b, c, d, e, f, g], _ => rfl

theorem decodeGas_fields {entry : GasMetadataRegistration} (hrow : row.length = 7 * 8)
    (hkey : key.length = maxMetadataKeyBytes) (hname : name.length = maxMetadataNameBytes)
    (harea : area.length = wireGasSlots * 16) :
    GasMetadataRegistration.decode
        (gasBytes id keyLen nameLen kind flags fire count present row key name area) = .ok entry ↔
      entry.Carries (gasBytes id keyLen nameLen kind flags fire count present row key name area) := by
  unfold GasMetadataRegistration.decode
  simp only [gas_words, bind_ok, bind_eq_ok, lift_eq_ok, validateStringLen_eq_ok, rejectIf_eq_ok,
    not_not, not_slots_lt, gas_scalars hrow, whenever_eq_ok, decodeFireProducts_eq_ok, pure_eq,
    Except.ok.injEq]
  constructor
  · rintro ⟨_, hkeyLen, _, hnameLen, _, hcount, _, hpresent, _, hkeyPad, _, hnamePad, keyText,
      hkeyText, nameText, hnameText, v, hv, _, hvisible, role, hrole, products, hproducts, fp,
      ⟨hkind, hlisted⟩, rfl⟩
    have hkeyField := (textField hkey hkeyLen).1
      ⟨((gas_key hrow hkey hkeyLen).2 _).1 hkeyText, ((gas_key hrow hkey hkeyLen).1 _).1 hkeyPad⟩
    have hnameField := (textField hname hnameLen).1
      ⟨((gas_name hrow hkey hname hnameLen).2 _).1 hnameText,
        ((gas_name hrow hkey hname hnameLen).1 _).1 hnamePad⟩
    obtain ⟨hlength, body, hbody, harea⟩ := (gas_products hrow hkey hname harea hcount).1 hproducts
    obtain ⟨hroleKind, hroleValues⟩ :=
      (decodeFireRole_eq_ok gas_words.1.2.2.2 (gas_zeros hv).2).1 hrole
    obtain ⟨present, rfl⟩ := exists_boolWord hpresent
    simp only [boolWord_and_one, ne_eq, Bool.not_eq_false] at hvisible ⊢
    obtain ⟨hflag, hvalue⟩ := optional_eq.1 ⟨fun h => ((gas_zeros hv).1 _).1 (hvisible h), rfl⟩
    subst hlisted
    refine ⟨hkeyField.1 ▸ hkeyLen, hnameField.1 ▸ hnameLen, hlength ▸ hcount, row, body, ?_, hbody, ?_⟩
    · rw [toList_seven] at hv
      simpa only [GasMetadataRegistration.scalars, hvalue, hroleValues] using hv
    · rw [← hkeyField.1, ← hnameField.1, ← hkeyField.2, ← hnameField.2, ← harea, hlength, hflag,
        hkind, hroleKind, UInt16.ofNat_toNat, UInt16.ofNat_toNat, UInt32.ofNat_toNat]
  · rintro ⟨hk, hn, hp, row', body, hrow', hbody, hbytes⟩
    rw [gasBytes_inj (hrow.trans (scalarFormat.length_all hrow').symm)
      (hkey.trans (length_padded hk).symm) (hname.trans (length_padded hn).symm)] at hbytes
    obtain ⟨⟨rfl, rfl, rfl, rfl⟩, ⟨rfl, rfl, rfl, rfl⟩, rfl, rfl, rfl, rfl⟩ := hbytes
    have hkeyLen : (UInt16.ofNat (utf8 entry.key).length).toNat = (utf8 entry.key).length :=
      UInt16.toNat_ofNat_of_lt' (Nat.lt_of_le_of_lt hk (by decide))
    have hnameLen : (UInt16.ofNat (utf8 entry.name).length).toNat = (utf8 entry.name).length :=
      UInt16.toNat_ofNat_of_lt' (Nat.lt_of_le_of_lt hn (by decide))
    have hcount : (UInt32.ofNat (listedProducts entry.fireProducts).length).toNat =
        (listedProducts entry.fireProducts).length :=
      UInt32.toNat_ofNat_of_lt' (Nat.lt_of_le_of_lt hp (by decide))
    have hv : CarriesAll ScalarCarries (#v[entry.specificHeat, entry.fusionPower,
        entry.molesVisible.getD .zero, entry.enthalpy, entry.fireRadiationReleased,
        entry.fireRole.values.1, entry.fireRole.values.2] : Vector ScalarValue 7).toList row := hrow'
    have hk := Nat.le_trans (Nat.le_of_eq hkeyLen) hk
    have hn := Nat.le_trans (Nat.le_of_eq hnameLen) hn
    have hp := Nat.le_trans (Nat.le_of_eq hcount) hp
    have hkeyField := (textField hkey hk).2 ⟨hkeyLen, rfl⟩
    have hnameField := (textField hname hn).2 ⟨hnameLen, rfl⟩
    obtain ⟨hzero, hvisible⟩ := optional_eq.2 ⟨rfl, (rfl : entry.molesVisible.getD .zero = _)⟩
    refine ⟨(), hk, (), hn, (), hp, (), boolWord_masked _,
      (), ((gas_key hrow hkey hk).1 _).2 hkeyField.2,
      (), ((gas_name hrow hkey hname hn).1 _).2 hnameField.2,
      entry.key, ((gas_key hrow hkey hk).2 _).2 hkeyField.1,
      entry.name, ((gas_name hrow hkey hname hn).2 _).2 hnameField.1,
      _, hv, (), fun h => ((gas_zeros hv).1 _).2 (hzero (boolWord_and_one.1 h)),
      entry.fireRole, (decodeFireRole_eq_ok gas_words.1.2.2.2 (gas_zeros hv).2).2 ⟨rfl, rfl⟩,
      _, (gas_products hrow hkey hname harea hp).2 ⟨hcount.symm, body, hbody, rfl⟩,
      _, ⟨rfl, rfl⟩, ?_⟩
    simp only [boolWord_and_one, ne_eq, Bool.not_eq_false]
    exact congrArg (fun visible => { entry with molesVisible := visible }) hvisible

end Gas

/-- The decoder of a gas accepts what the encoder writes. -/
theorem GasMetadataRegistration.decode_eq_ok {entry : GasMetadataRegistration} {bs : Bytes}
    (h : bs.length = gasMetadataRecordLen) :
    GasMetadataRegistration.decode bs = .ok entry ↔ entry.encode = .ok bs := by
  obtain ⟨id, keyLen, nameLen, kind, flags, fire, count, present, row, key, name, area, rfl, hrow,
    hkey, hname, harea⟩ := exists_gas_fields h
  rw [GasMetadataRegistration.encode_eq_ok]
  exact decodeGas_fields hrow hkey hname harea

theorem GasMetadataRegistration.length_encode {entry : GasMetadataRegistration} {bs : Bytes}
    (h : entry.encode = .ok bs) : bs.length = gasMetadataRecordLen := by
  obtain ⟨hk, hn, hp, row, body, hrow, hbody, rfl⟩ := GasMetadataRegistration.encode_eq_ok.1 h
  have hlist : body.length ≤ wireGasSlots * 16 := by
    rw [productFormat.length_all hbody]
    exact Nat.mul_le_mul_right 16 hp
  have hrow : row.length = 7 * 8 := scalarFormat.length_all hrow
  unfold gasBytes
  simp only [List.length_append, length_le16, length_le32, length_padded hk, length_padded hn,
    length_padded hlist, hrow]
  rfl

theorem safe_decodeFireRole {input : Bytes} {scalars : Vector ScalarValue 7}
    (h : 80 ≤ input.length) : Safe (decodeFireRole input scalars) := by
  unfold decodeFireRole
  refine safe_bind (safe_readU16 (by omega)) fun kind _ => ?_
  split
  · exact safe_bind (safe_requireZero (by decide) h) fun _ _ => safe_ok _
  split
  · exact safe_ok _
  split
  · exact safe_ok _
  · exact safe_reject

theorem GasMetadataRegistration.safe_decode {input : Bytes}
    (h : input.length = gasMetadataRecordLen) : Safe (GasMetadataRegistration.decode input) := by
  unfold gasMetadataRecordLen at h
  unfold GasMetadataRegistration.decode
  refine safe_bind (safe_readU16 (by omega)) fun keyLen _ => ?_
  refine safe_bind (safe_readU16 (by omega)) fun nameLen _ => ?_
  refine safe_bind (safe_lift _) fun _ hkey => safe_bind (safe_lift _) fun _ hname => ?_
  rw [lift_eq_ok, validateStringLen_eq_ok] at hkey hname
  unfold maxMetadataKeyBytes at hkey
  unfold maxMetadataNameBytes at hname
  refine safe_bind (safe_readU32 (by omega)) fun count _ => safe_rejectIf_bind fun _ => ?_
  refine safe_bind (safe_readU32 (by omega)) fun present _ => safe_rejectIf_bind fun _ => ?_
  refine safe_bind (safe_requireZero (by omega) (by omega)) fun _ _ => ?_
  refine safe_bind (safe_requireZero (by omega) (by omega)) fun _ _ => ?_
  refine safe_bind (safe_readText (by omega) (by omega)) fun _ _ => ?_
  refine safe_bind (safe_readText (by omega) (by omega)) fun _ _ => ?_
  refine safe_bind (safe_decodeScalars (by omega)) fun _ _ => ?_
  refine safe_bind (safe_whenever (safe_requireZero (by omega) (by omega))) fun _ _ => ?_
  refine safe_bind (safe_decodeFireRole (by omega)) fun _ _ => ?_
  refine safe_bind (safe_paddedRecords (fun _ => safe_gasAmountRecord) ?_) fun _ _ => ?_
  · unfold wireGasSlots
    omega
  refine safe_bind (safe_readU32 (by omega)) fun _ _ => safe_bind (safe_lift _) fun _ _ => ?_
  refine safe_bind (safe_readU16 (by omega)) fun _ _ => ?_
  exact safe_bind (safe_readU32 (by omega)) fun _ _ => safe_ok _

end Dogmos.Wire
