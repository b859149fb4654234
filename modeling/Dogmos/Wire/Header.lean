import Dogmos.Wire.Format

/-!
# The header of a frame

Every frame starts with a header of 48 bytes.  Its decoder accepts the headers of this
protocol version that name a known operation, carry known flags and announce a payload that
fits a control frame.

* `ProtocolHeader.decode_eq_ok` — the decoder accepts the bytes of a valid header and what
  follows them.
-/

namespace Dogmos.Wire

open Bytes

def dogmosFrameMagic : UInt32 := 0x534d4744

def dogmosAbiVersion : UInt16 := 2

def dogmosProtocolVersion : UInt16 := 13

def protocolHeaderLen : Nat := 48

def flagResponse : UInt16 := 1

def flagError : UInt16 := 2

/-- `ProtocolHeader`. -/
structure ProtocolHeader where
  magic : UInt32
  protocolVersion : UInt16
  headerLen : UInt16
  operationKind : UInt16
  flags : UInt16
  payloadLen : UInt32
  requestId : UInt64
  worldGeneration : UInt32
  reserved : UInt32
  worldNonce : UInt64
  deadlineNs : UInt64
deriving DecidableEq

/-- The operations that `OperationKind` knows: 1 to 3 and 10 to 48. -/
def knownOperation (kind : UInt16) : Bool :=
  1 ≤ kind ∧ kind ≤ 3 ∨ 10 ≤ kind ∧ kind ≤ 48

namespace ProtocolHeader

/-- `ProtocolHeader::encode`. -/
def encode (header : ProtocolHeader) : Bytes :=
  let output := zeros protocolHeaderLen
  let output := put output 0 (le32 header.magic)
  let output := put output 4 (le16 header.protocolVersion)
  let output := put output 6 (le16 header.headerLen)
  let output := put output 8 (le16 header.operationKind)
  let output := put output 10 (le16 header.flags)
  let output := put output 12 (le32 header.payloadLen)
  let output := put output 16 (le64 header.requestId)
  let output := put output 24 (le32 header.worldGeneration)
  let output := put output 28 (le32 header.reserved)
  let output := put output 32 (le64 header.worldNonce)
  put output 40 (le64 header.deadlineNs)

/-- `ProtocolHeader::validate`. -/
def validate (header : ProtocolHeader) : Except ProtocolError Unit := do
  failIf (header.magic ≠ dogmosFrameMagic) (.invalidMagic header.magic)
  failIf (header.protocolVersion ≠ dogmosProtocolVersion)
    (.unsupportedProtocolVersion header.protocolVersion)
  failIf (header.headerLen ≠ UInt16.ofNat protocolHeaderLen) (.invalidHeaderLength header.headerLen)
  failIf (knownOperation header.operationKind = false) (.unknownOperationKind header.operationKind)
  failIf (header.flags &&& ~~~(flagResponse ||| flagError) ≠ 0)
    (.unknownFlags (header.flags &&& ~~~(flagResponse ||| flagError)))
  failIf (header.flags &&& flagError ≠ 0 ∧ header.flags &&& flagResponse = 0)
    .errorFlagWithoutResponse
  failIf (header.reserved ≠ 0) (.reservedField header.reserved)
  failIf (maxControlPayload < header.payloadLen)
    (.payloadTooLarge header.payloadLen maxControlPayload)

/-- `ProtocolHeader::decode`. -/
def decode (input : Bytes) : Decoded ProtocolHeader := do
  rejectIf (input.length < protocolHeaderLen) (.truncatedHeader (UInt32.ofNat input.length))
  let header : ProtocolHeader := {
    magic := ← readU32 input 0
    protocolVersion := ← readU16 input 4
    headerLen := ← readU16 input 6
    operationKind := ← readU16 input 8
    flags := ← readU16 input 10
    payloadLen := ← readU32 input 12
    requestId := ← readU64 input 16
    worldGeneration := ← readU32 input 24
    reserved := ← readU32 input 28
    worldNonce := ← readU64 input 32
    deadlineNs := ← readU64 input 40 }
  lift header.validate
  pure header

/-- A header that the decoder accepts. -/
structure Valid (header : ProtocolHeader) : Prop where
  magic : header.magic = dogmosFrameMagic
  protocolVersion : header.protocolVersion = dogmosProtocolVersion
  headerLen : header.headerLen = UInt16.ofNat protocolHeaderLen
  operationKind : knownOperation header.operationKind = true
  flags : header.flags &&& ~~~(flagResponse ||| flagError) = 0
  error : header.flags &&& flagError ≠ 0 → header.flags &&& flagResponse ≠ 0
  reserved : header.reserved = 0
  payloadLen : header.payloadLen ≤ maxControlPayload

theorem validate_eq_ok {header : ProtocolHeader} {u : Unit} :
    header.validate = .ok u ↔ header.Valid := by
  unfold validate
  simp only [bind_eq_ok, failIf_eq_ok, not_not, not_and, Bool.not_eq_false, UInt32.not_lt]
  constructor
  · rintro ⟨_, hmagic, _, hversion, _, hlength, _, hkind, _, hflags, _, herror, _, hreserved, hpayload⟩
    exact ⟨hmagic, hversion, hlength, hkind, hflags, herror, hreserved, hpayload⟩
  · rintro ⟨hmagic, hversion, hlength, hkind, hflags, herror, hreserved, hpayload⟩
    exact ⟨(), hmagic, (), hversion, (), hlength, (), hkind, (), hflags, (), herror, (), hreserved,
      hpayload⟩

theorem encode_eq (header : ProtocolHeader) :
    header.encode = le32 header.magic ++ (le16 header.protocolVersion ++ (le16 header.headerLen ++
      (le16 header.operationKind ++ (le16 header.flags ++ (le32 header.payloadLen ++
        (le64 header.requestId ++ (le32 header.worldGeneration ++ (le32 header.reserved ++
          (le64 header.worldNonce ++ le64 header.deadlineNs))))))))) := by
  simp [encode, put_append, put_zeros, protocolHeaderLen]

@[simp] theorem length_encode (header : ProtocolHeader) :
    header.encode.length = protocolHeaderLen := by
  simp [encode_eq, protocolHeaderLen]

/-- A header is read from its bytes, whatever follows them. -/
theorem decode_encode_append {header header' : ProtocolHeader} (rest : Bytes) :
    decode (header.encode ++ rest) = .ok header' ↔ header.Valid ∧ header = header' := by
  unfold decode
  rw [rejectIf_neg (by simp), encode_eq]
  simp only [List.append_assoc, readU16_skip, readU32_block, readU32_skip, readU64_skip,
    readU16_block, readU64_block, length_le16, length_le32, length_le64, Nat.reduceLeDiff,
    Nat.reduceSub, bind_ok, bind_eq_ok, lift_eq_ok, validate_eq_ok, pure_eq, Except.ok.injEq]
  constructor
  · rintro ⟨_, hvalid, rfl⟩
    exact ⟨hvalid, rfl⟩
  · rintro ⟨hvalid, rfl⟩
    exact ⟨(), hvalid, rfl⟩

/-- Every string of the length of a header is the bytes of one. -/
theorem exists_header_append {bs : Bytes} (h : protocolHeaderLen ≤ bs.length) :
    ∃ (header : ProtocolHeader) (rest : Bytes), bs = header.encode ++ rest := by
  unfold protocolHeaderLen at h
  obtain ⟨magic, bs, rfl, h₁⟩ := exists_le32_append (show 4 ≤ bs.length by omega)
  obtain ⟨version, bs, rfl, h₂⟩ := exists_le16_append (show 2 ≤ bs.length by omega)
  obtain ⟨headerLen, bs, rfl, h₃⟩ := exists_le16_append (show 2 ≤ bs.length by omega)
  obtain ⟨kind, bs, rfl, h₄⟩ := exists_le16_append (show 2 ≤ bs.length by omega)
  obtain ⟨flags, bs, rfl, h₅⟩ := exists_le16_append (show 2 ≤ bs.length by omega)
  obtain ⟨payloadLen, bs, rfl, h₆⟩ := exists_le32_append (show 4 ≤ bs.length by omega)
  obtain ⟨requestId, bs, rfl, h₇⟩ := exists_le64_append (show 8 ≤ bs.length by omega)
  obtain ⟨generation, bs, rfl, h₈⟩ := exists_le32_append (show 4 ≤ bs.length by omega)
  obtain ⟨reserved, bs, rfl, h₉⟩ := exists_le32_append (show 4 ≤ bs.length by omega)
  obtain ⟨nonce, bs, rfl, h₁₀⟩ := exists_le64_append (show 8 ≤ bs.length by omega)
  obtain ⟨deadline, bs, rfl, h₁₁⟩ := exists_le64_append (show 8 ≤ bs.length by omega)
  refine ⟨⟨magic, version, headerLen, kind, flags, payloadLen, requestId, generation, reserved, nonce,
    deadline⟩, bs, ?_⟩
  simp only [encode_eq, List.append_assoc]

theorem decode_of_short {bs : Bytes} (h : bs.length < protocolHeaderLen) :
    decode bs = reject (.truncatedHeader (.ofNat bs.length)) := by
  unfold decode
  rw [rejectIf, if_pos h]
  rfl

theorem length_of_decode {header : ProtocolHeader} {bs : Bytes} (h : decode bs = .ok header) :
    protocolHeaderLen ≤ bs.length := by
  by_contra hshort
  rw [decode_of_short (Nat.not_le.1 hshort)] at h
  cases h

/-- The decoder accepts the bytes of valid headers and what follows them. -/
theorem decode_eq_ok {header : ProtocolHeader} {bs : Bytes} :
    decode bs = .ok header ↔ header.Valid ∧ ∃ rest, bs = header.encode ++ rest := by
  constructor
  · intro h
    have hlength := length_of_decode h
    obtain ⟨header', rest, hbs⟩ := exists_header_append hlength
    rw [hbs, decode_encode_append] at h
    obtain ⟨hvalid, rfl⟩ := h
    exact ⟨hvalid, rest, hbs⟩
  · rintro ⟨hvalid, rest, hbs⟩
    rw [hbs]
    exact (decode_encode_append rest).2 ⟨hvalid, rfl⟩

theorem safe_decode (input : Bytes) : Safe (decode input) := by
  unfold decode protocolHeaderLen
  refine safe_rejectIf_bind fun hlength => ?_
  refine safe_bind (safe_readU32 (by omega)) fun _ _ => ?_
  refine safe_bind (safe_readU16 (by omega)) fun _ _ => ?_
  refine safe_bind (safe_readU16 (by omega)) fun _ _ => ?_
  refine safe_bind (safe_readU16 (by omega)) fun _ _ => ?_
  refine safe_bind (safe_readU16 (by omega)) fun _ _ => ?_
  refine safe_bind (safe_readU32 (by omega)) fun _ _ => ?_
  refine safe_bind (safe_readU64 (by omega)) fun _ _ => ?_
  refine safe_bind (safe_readU32 (by omega)) fun _ _ => ?_
  refine safe_bind (safe_readU32 (by omega)) fun _ _ => ?_
  refine safe_bind (safe_readU64 (by omega)) fun _ _ => ?_
  refine safe_bind (safe_readU64 (by omega)) fun _ _ => ?_
  exact safe_bind (safe_lift _) fun _ _ => safe_ok _

end ProtocolHeader

end Dogmos.Wire
