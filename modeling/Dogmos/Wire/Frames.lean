import Dogmos.Lib.Channel
import Dogmos.Wire.Header

/-!
# Frames on a stream

A frame is a header and its payload.  Small frames are written in one call and large ones in
two; a frame is read as its header and then as many bytes as the header announces.

* `writeFrame_eq_ok` — a frame with a valid header of the right length is written whole, and
  nothing else is.
* `readFrameInto_frame` — the bytes of a frame are read as that frame, and no byte more.
* `framing_transparent` — the frames that are read are those that were written, however the
  calls at both ends cut the stream; a frame that is not read leaves no payload.
-/

namespace Dogmos.Wire

open Bytes Transport

def coalescePayloadLimit : Nat := 512

/-- `TransportError`; the one failure of the stream here is its end. -/
inductive TransportError where
  | io
  | protocol (error : ProtocolError)
  | payloadLengthMismatch (header : UInt32) (actual : Nat)
  | bufferTooSmall (required available : Nat)
deriving DecidableEq

/-- A header and its payload. -/
structure Frame where
  header : ProtocolHeader
  payload : Bytes
deriving DecidableEq

/-- A frame that the protocol knows. -/
structure Frame.Valid (frame : Frame) : Prop where
  header : frame.header.Valid
  length : frame.payload.length = frame.header.payloadLen.toNat

def Frame.bytes (frame : Frame) : Bytes := frame.header.encode ++ frame.payload

/-- An error of the protocol is one of the transport. -/
def ofProtocol {α : Type} : Decoded α → Checked TransportError α
  | .ok a => .ok a
  | .error (.rejects error) => .error (.rejects (.protocol error))
  | .error .panic => .error .panic

/-! ## Writing -/

/-- The checks of `write_frame` and the buffers it writes, in order. -/
def framePieces (header : ProtocolHeader) (payload : Bytes) :
    Checked TransportError (List Bytes) := do
  if payload.length ≠ header.payloadLen.toNat then
    .error (.rejects (.payloadLengthMismatch header.payloadLen payload.length))
  let headerBytes := header.encode
  let _ ← ofProtocol (ProtocolHeader.decode headerBytes)
  if payload.length ≤ coalescePayloadLimit then
    let frame := zeros (protocolHeaderLen + coalescePayloadLimit)
    let frameLen := headerBytes.length + payload.length
    let frame := put frame 0 headerBytes
    -- the payload is copied into a part of the buffer, which must hold it
    let _ ← slice frame headerBytes.length frameLen
    let frame := put frame headerBytes.length payload
    pure [← slice frame 0 frameLen]
  else
    pure [headerBytes, payload]

/-- `write_frame`; a flush moves no bytes. -/
def writeFrame (writer : Channel UInt8) (header : ProtocolHeader) (payload : Bytes) :
    Checked TransportError Unit × Channel UInt8 :=
  match framePieces header payload with
  | .error fault => (.error fault, writer)
  | .ok pieces => (.ok (), pieces.foldl Channel.writeAll writer)

/-- Frames written one after the other. -/
def writeFrames (writer : Channel UInt8) : List Frame → Checked TransportError Unit × Channel UInt8
  | [] => (.ok (), writer)
  | frame :: frames =>
    match writeFrame writer frame.header frame.payload with
    | (.error fault, writer) => (.error fault, writer)
    | (.ok (), writer) => writeFrames writer frames

/-! ## Reading -/

/-- What `read_frame_into` returns, the stream it leaves and the buffer. -/
structure FrameRead where
  result : Checked TransportError (ProtocolHeader × Nat)
  reader : Channel UInt8
  buffer : Bytes

/-- `read_frame_into`. -/
def readFrameInto (reader : Channel UInt8) (buffer : Bytes) : FrameRead :=
  let headerRead := reader.readExact protocolHeaderLen
  if headerRead.complete = false then
    ⟨.error (.rejects .io), headerRead.channel, buffer⟩
  else
    match ofProtocol (ProtocolHeader.decode headerRead.got) with
    | .error fault => ⟨.error fault, headerRead.channel, buffer⟩
    | .ok header =>
      let payloadLen := header.payloadLen.toNat
      if buffer.length < payloadLen then
        ⟨.error (.rejects (.bufferTooSmall payloadLen buffer.length)), headerRead.channel, buffer⟩
      else
        let payloadRead := headerRead.channel.readExact payloadLen
        let buffer := put buffer 0 payloadRead.got
        if payloadRead.complete = false then
          ⟨.error (.rejects .io), payloadRead.channel, buffer⟩
        else
          ⟨.ok (header, payloadLen), payloadRead.channel, buffer⟩

/-- Frames read one after the other, each into a buffer of its caller, which then looks at
as many bytes of it as were read. -/
def readFrames (reader : Channel UInt8) :
    List Bytes → Checked TransportError (List Frame) × Channel UInt8
  | [] => (.ok [], reader)
  | buffer :: buffers =>
    let read := readFrameInto reader buffer
    match read.result with
    | .error fault => (.error fault, read.reader)
    | .ok (header, payloadLen) =>
      let rest := readFrames read.reader buffers
      (rest.1.map (⟨header, read.buffer.take payloadLen⟩ :: ·), rest.2)

/-! ## What a frame is written as -/

section Write

variable {header : ProtocolHeader} {payload : Bytes} {writer writer' : Channel UInt8}

@[simp] theorem ofProtocol_eq_ok {α : Type} {m : Decoded α} {a : α} :
    ofProtocol m = .ok a ↔ m = .ok a := by
  unfold ofProtocol
  split <;> simp_all

theorem decode_encode_eq_ok {header' : ProtocolHeader} :
    ProtocolHeader.decode header.encode = .ok header' ↔ header.Valid ∧ header = header' := by
  simpa using @ProtocolHeader.decode_encode_append header header' []

/-- The buffer of a small frame has room for its payload. -/
theorem coalesced_room (h : payload.length ≤ coalescePayloadLimit) :
    ∃ room : Bytes, slice (ε := TransportError)
      (put (zeros (protocolHeaderLen + coalescePayloadLimit)) 0 header.encode)
        header.encode.length (header.encode.length + payload.length) = .ok room := by
  have hroom : header.encode.length + payload.length ≤
      (put (zeros (protocolHeaderLen + coalescePayloadLimit)) 0 header.encode).length := by
    rw [put_zeros, List.length_append, length_zeros, ProtocolHeader.length_encode]
    omega
  obtain ⟨room, hslice, -⟩ := slice_ok (ε := TransportError) (Nat.le_add_right ..) hroom
  exact ⟨room, hslice⟩

/-- The buffer of a small frame holds its bytes. -/
theorem coalesced :
    slice (ε := TransportError)
      (put (put (zeros (protocolHeaderLen + coalescePayloadLimit)) 0 header.encode)
        header.encode.length payload) 0 (header.encode.length + payload.length) =
      .ok (header.encode ++ payload) := by
  rw [put_zeros, put_append _ _ (Nat.le_refl _), Nat.sub_self, put_zeros, ← List.append_assoc]
  exact slice_block _ (List.length_append ..)

/-- A small frame is one buffer, a large one two; together they are its bytes. -/
theorem framePieces_eq_ok {pieces : List Bytes} :
    framePieces header payload = .ok pieces ↔
      (Frame.mk header payload).Valid ∧
        pieces = if payload.length ≤ coalescePayloadLimit then [header.encode ++ payload]
          else [header.encode, payload] := by
  unfold framePieces
  by_cases hlength : payload.length = header.payloadLen.toNat
  · rw [if_neg (not_not.2 hlength)]
    by_cases hsmall : payload.length ≤ coalescePayloadLimit
    · obtain ⟨room, hroom⟩ := @coalesced_room header payload hsmall
      simp only [if_pos hsmall, hroom, coalesced, bind_eq_ok, bind_ok, ofProtocol_eq_ok,
        decode_encode_eq_ok, pure_eq, Except.ok.injEq]
      constructor
      · rintro ⟨_, ⟨hvalid, -⟩, rfl⟩
        exact ⟨⟨hvalid, hlength⟩, rfl⟩
      · rintro ⟨hvalid, rfl⟩
        exact ⟨header, ⟨hvalid.header, rfl⟩, rfl⟩
    · simp only [if_neg hsmall, bind_eq_ok, ofProtocol_eq_ok, decode_encode_eq_ok, pure_eq,
        Except.ok.injEq]
      constructor
      · rintro ⟨_, ⟨hvalid, -⟩, rfl⟩
        exact ⟨⟨hvalid, hlength⟩, rfl⟩
      · rintro ⟨hvalid, rfl⟩
        exact ⟨header, ⟨hvalid.header, rfl⟩, rfl⟩
  · rw [if_pos hlength]
    constructor
    · intro h
      cases h
    · exact fun h => absurd h.1.length hlength

/-- Exactly the valid frames are written, and they are written whole. -/
theorem writeFrame_eq_ok :
    writeFrame writer header payload = (.ok (), writer') ↔
      (Frame.mk header payload).Valid ∧
        writer' = if payload.length ≤ coalescePayloadLimit
          then writer.writeAll (header.encode ++ payload)
          else (writer.writeAll header.encode).writeAll payload := by
  unfold writeFrame
  cases hpieces : framePieces header payload with
  | error fault =>
    have hnot : ¬(Frame.mk header payload).Valid := by
      intro hvalid
      rw [framePieces_eq_ok.2 ⟨hvalid, rfl⟩] at hpieces
      cases hpieces
    simp [hnot]
  | ok pieces =>
    obtain ⟨hvalid, rfl⟩ := framePieces_eq_ok.1 hpieces
    by_cases hsmall : payload.length ≤ coalescePayloadLimit
    · simp [hsmall, hvalid, eq_comm]
    · simp [hsmall, hvalid, eq_comm]

theorem writeFrame_items (h : writeFrame writer header payload = (.ok (), writer')) :
    writer'.items = writer.items ++ (Frame.mk header payload).bytes := by
  obtain ⟨-, rfl⟩ := writeFrame_eq_ok.1 h
  unfold Frame.bytes
  split
  · rw [writeAll_items]
  · rw [writeAll_items, writeAll_items, List.append_assoc]

end Write

/-- Frames that are written are valid, and their bytes are what is added to the stream. -/
theorem writeFrames_items {frames : List Frame} {writer writer' : Channel UInt8}
    (h : writeFrames writer frames = (.ok (), writer')) :
    (∀ frame ∈ frames, frame.Valid) ∧
      writer'.items = writer.items ++ (frames.map Frame.bytes).flatten := by
  induction frames generalizing writer with
  | nil =>
    cases h
    simp
  | cons frame frames ih =>
    unfold writeFrames at h
    split at h
    · cases h
    · next written hframe =>
      obtain ⟨hframes, hitems⟩ := ih h
      refine ⟨List.forall_mem_cons.2 ⟨(writeFrame_eq_ok.1 hframe).1, hframes⟩, ?_⟩
      rw [hitems, writeFrame_items hframe, List.map_cons, List.flatten_cons, List.append_assoc]

/-- Every sequence of valid frames is written. -/
theorem writeFrames_ok {frames : List Frame} (h : ∀ frame ∈ frames, frame.Valid)
    (writer : Channel UInt8) : ∃ writer', writeFrames writer frames = (.ok (), writer') := by
  induction frames generalizing writer with
  | nil => exact ⟨writer, rfl⟩
  | cons frame frames ih =>
    obtain ⟨hframe, hframes⟩ := List.forall_mem_cons.1 h
    obtain ⟨writer', hrest⟩ := ih hframes _
    refine ⟨writer', ?_⟩
    unfold writeFrames
    rw [writeFrame_eq_ok.2 ⟨hframe, rfl⟩]
    exact hrest

/-! ## What a frame is read as -/

section Read

variable {calls : List Call} {rest buffer : Bytes}

theorem readHeader (header : ProtocolHeader) (calls : List Call) (rest : Bytes) :
    ∃ calls', (Channel.mk (header.encode ++ rest) calls).readExact protocolHeaderLen =
      ⟨header.encode, true, ⟨rest, calls'⟩⟩ := by
  rw [← ProtocolHeader.length_encode header]
  exact readExact_append header.encode rest calls

theorem take_put_zero {bs : Bytes} : (put buffer 0 bs).take bs.length = bs := by
  simp [put]

/-- A frame that fits the buffer is read, and no byte more. -/
theorem readFrameInto_frame {frame : Frame} (hvalid : frame.Valid)
    (hfits : frame.payload.length ≤ buffer.length) :
    ∃ calls', readFrameInto ⟨frame.bytes ++ rest, calls⟩ buffer =
      ⟨.ok (frame.header, frame.payload.length), ⟨rest, calls'⟩, put buffer 0 frame.payload⟩ := by
  obtain ⟨calls₁, hheader⟩ := readHeader frame.header calls (frame.payload ++ rest)
  obtain ⟨calls₂, hpayload⟩ := readExact_append frame.payload rest calls₁
  refine ⟨calls₂, ?_⟩
  have hdecode := ofProtocol_eq_ok.2 (decode_encode_eq_ok.2 ⟨hvalid.header, rfl⟩)
  unfold readFrameInto Frame.bytes
  simp only [List.append_assoc, hheader, hdecode, ← hvalid.length, Nat.not_lt.2 hfits, hpayload,
    if_false, Bool.true_eq_false]

/-- A header that is not valid is an error, and the buffer is as it was. -/
theorem readFrameInto_invalid {header : ProtocolHeader} (h : ¬header.Valid) :
    ∃ error, (readFrameInto ⟨header.encode ++ rest, calls⟩ buffer).result =
        .error (.rejects (.protocol error)) ∧
      (readFrameInto ⟨header.encode ++ rest, calls⟩ buffer).buffer = buffer := by
  obtain ⟨calls', hheader⟩ := readHeader header calls rest
  obtain ⟨error, hdecode⟩ := rejected_of_safe (ProtocolHeader.safe_decode header.encode)
    fun header' hok => h (decode_encode_eq_ok.1 hok).1
  refine ⟨error, ?_⟩
  unfold readFrameInto
  simp only [hheader, hdecode, reject, ofProtocol, if_false, Bool.true_eq_false, and_self]

/-- A payload that does not fit the buffer is an error, and the buffer is as it was. -/
theorem readFrameInto_tooSmall {header : ProtocolHeader} (hvalid : header.Valid)
    (h : buffer.length < header.payloadLen.toNat) :
    (readFrameInto ⟨header.encode ++ rest, calls⟩ buffer).result =
        .error (.rejects (.bufferTooSmall header.payloadLen.toNat buffer.length)) ∧
      (readFrameInto ⟨header.encode ++ rest, calls⟩ buffer).buffer = buffer := by
  obtain ⟨calls', hheader⟩ := readHeader header calls rest
  have hdecode := ofProtocol_eq_ok.2 (decode_encode_eq_ok.2 ⟨hvalid, rfl⟩)
  unfold readFrameInto
  simp only [hheader, hdecode, h, if_true, if_false, Bool.true_eq_false, and_self]

/-- A stream that ends before the frame does is an error. -/
theorem readFrameInto_truncated {items : Bytes} {frame : Frame} (hvalid : frame.Valid)
    (hfits : frame.payload.length ≤ buffer.length) (h : items <+: frame.bytes)
    (hshort : items.length < frame.bytes.length) :
    (readFrameInto ⟨items, calls⟩ buffer).result = .error (.rejects .io) := by
  obtain ⟨calls₁, hheader⟩ := readExact_eq ⟨items, calls⟩ protocolHeaderLen
  unfold readFrameInto
  by_cases hwhole : protocolHeaderLen ≤ items.length
  · obtain ⟨rest, hrest⟩ := h
    have hfront : items.take protocolHeaderLen = frame.header.encode := by
      have htake := congrArg (List.take protocolHeaderLen) hrest
      rw [List.take_append_of_le_length hwhole] at htake
      rw [htake, Frame.bytes, List.take_left' (ProtocolHeader.length_encode _)]
    have hdecode := ofProtocol_eq_ok.2
      (decode_encode_eq_ok.2 ⟨hvalid.header, (rfl : frame.header = frame.header)⟩)
    obtain ⟨calls₂, hpayload⟩ :=
      readExact_eq ⟨items.drop protocolHeaderLen, calls₁⟩ frame.payload.length
    have hmissing : ¬frame.payload.length ≤ items.length - protocolHeaderLen := by
      rw [Frame.bytes, List.length_append, ProtocolHeader.length_encode] at hshort
      omega
    simp only [hheader, hfront, hdecode, ← hvalid.length, Nat.not_lt.2 hfits, hpayload,
      List.length_drop, hwhole, hmissing, decide_true, decide_false, if_true, if_false,
      Bool.true_eq_false]
  · simp only [hheader, hwhole, decide_false, if_true]

/-- The bytes of frames are read as the frames. -/
theorem readFrames_frames {frames : List Frame} {buffers : List Bytes}
    (hvalid : ∀ frame ∈ frames, frame.Valid)
    (hfits : List.Forall₂ (fun frame buffer => frame.payload.length ≤ buffer.length)
      frames buffers) :
    ∃ calls', readFrames ⟨(frames.map Frame.bytes).flatten ++ rest, calls⟩ buffers =
      (.ok frames, ⟨rest, calls'⟩) := by
  induction hfits generalizing calls with
  | nil => exact ⟨calls, rfl⟩
  | @cons frame buffer frames buffers hfit _ ih =>
    obtain ⟨hframe, hframes⟩ := List.forall_mem_cons.1 hvalid
    obtain ⟨calls₁, hread⟩ := @readFrameInto_frame calls
      ((frames.map Frame.bytes).flatten ++ rest) buffer frame hframe hfit
    obtain ⟨calls₂, hrest⟩ := @ih calls₁ hframes
    refine ⟨calls₂, ?_⟩
    unfold readFrames
    simp only [List.map_cons, List.flatten_cons, List.append_assoc, hread, hrest, take_put_zero]
    rfl

end Read

/-- What is reported of frames that are not read: an error, and no part of a payload. -/
structure FrameErrors : Prop where
  invalid : ∀ {header : ProtocolHeader}, ¬header.Valid → ∀ (rest : Bytes) calls buffer,
    ∃ error, (readFrameInto ⟨header.encode ++ rest, calls⟩ buffer).result =
        .error (.rejects (.protocol error)) ∧
      (readFrameInto ⟨header.encode ++ rest, calls⟩ buffer).buffer = buffer
  tooSmall : ∀ {header : ProtocolHeader} {buffer : Bytes}, header.Valid →
    buffer.length < header.payloadLen.toNat → ∀ (rest : Bytes) calls,
    (readFrameInto ⟨header.encode ++ rest, calls⟩ buffer).result =
        .error (.rejects (.bufferTooSmall header.payloadLen.toNat buffer.length)) ∧
      (readFrameInto ⟨header.encode ++ rest, calls⟩ buffer).buffer = buffer
  truncated : ∀ {frame : Frame} {items buffer : Bytes}, frame.Valid →
    frame.payload.length ≤ buffer.length → items <+: frame.bytes →
    items.length < frame.bytes.length → ∀ calls,
    (readFrameInto ⟨items, calls⟩ buffer).result = .error (.rejects .io)

/-- Written frames are read back as they were written, whatever calls move their bytes: every
sequence of valid frames is written, into buffers that are large enough exactly these frames
are read, and what follows them stays in the stream. -/
theorem framing_transparent (frames : List Frame) (writer : Channel UInt8) :
    ((∃ writer', writeFrames writer frames = (.ok (), writer')) ↔
        ∀ frame ∈ frames, frame.Valid) ∧
      (∀ writer', writeFrames writer frames = (.ok (), writer') →
        ∃ written, writer'.items = writer.items ++ written ∧
          ∀ (buffers : List Bytes), List.Forall₂ (fun frame buffer =>
              frame.payload.length ≤ buffer.length) frames buffers →
            ∀ (rest : Bytes) (calls : List Call), ∃ calls',
              readFrames ⟨written ++ rest, calls⟩ buffers = (.ok frames, ⟨rest, calls'⟩)) ∧
      FrameErrors := by
  refine ⟨⟨?_, fun hvalid => writeFrames_ok hvalid writer⟩, ?_, ?_⟩
  · rintro ⟨writer', hwritten⟩
    exact (writeFrames_items hwritten).1
  · intro writer' hwritten
    obtain ⟨hvalid, hitems⟩ := writeFrames_items hwritten
    exact ⟨_, hitems, fun buffers hfits rest calls => readFrames_frames hvalid hfits⟩
  · exact ⟨fun h _ _ _ => readFrameInto_invalid h, fun hvalid h _ _ =>
      readFrameInto_tooSmall hvalid h, fun hvalid hfits h hshort _ =>
      readFrameInto_truncated hvalid hfits h hshort⟩

end Dogmos.Wire
