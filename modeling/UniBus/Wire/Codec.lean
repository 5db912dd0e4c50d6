import UniBus.Wire.Frame

/-!
# Frame encoding and decoding

`encodeFrame` and `decodeFrame` on byte strings. Reads past the end of the
buffer are the only failures of a field read. Past the two length checks only
the immediate of a DATA frame can still be cut off.
-/
namespace UniBus.Wire

open BigEndian (put)

def encodeHeader (header : FrameHeader) : List UInt8 :=
  put 4 header.magic.toNat ++ put 1 header.version.toNat ++
    put 1 header.frameType.toU8.toNat ++ put 2 header.flags.bits.toNat ++
    put 2 header.srcNode.toNat ++ put 2 header.dstNode.toNat ++ put 4 header.reserved.toNat ++
    put 8 header.streamSeq.toNat ++ put 4 header.payloadLen.toNat ++ put 4 header.headerCrc.toNat

def encodeDataExtHeader (ext : DataExtHeader) : List UInt8 :=
  put 1 ext.verb.toU8.toNat ++ put 1 ext.extFlags.bits.toNat ++ put 2 0 ++
    put 4 ext.mrHandle.toNat ++ put 4 ext.jettySrc.toNat ++ put 4 ext.jettyDst.toNat ++
    put 8 ext.opaqueId.toNat ++ put 4 ext.fragId.toNat ++ put 2 ext.fragIndex.toNat ++
    put 2 ext.fragTotal.toNat ++ ext.ubAddr.toBytes ++
    (match ext.imm with
      | some imm => put 8 imm.toNat
      | none => [])

def encodeFrame (header : FrameHeader) (ext : Option DataExtHeader) (payload : List UInt8) :
    List UInt8 :=
  encodeHeader header ++
    (match ext with
      | some ext => encodeDataExtHeader ext
      | none => []) ++ payload

/-- One cursor read, with the text of the I/O error it maps. -/
def readField (width : ℕ) (cursor : List UInt8) : Except UbError (ℕ × List UInt8) :=
  match BigEndian.read width cursor with
  | some r => .ok r
  | none => .error (.internal "failed to fill whole buffer")

def readExact (width : ℕ) (cursor : List UInt8) : Except UbError (List UInt8 × List UInt8) :=
  if cursor.length < width then .error (.internal "failed to fill whole buffer")
  else .ok (cursor.take width, cursor.drop width)

/-- Lower-case hexadecimal, padded with zeros to the given width. -/
def hex (width n : ℕ) : String :=
  let digits := Nat.toDigits 16 n
  String.ofList (List.replicate (width - digits.length) '0' ++ digits)

def decodeDataExtHeader (buf : List UInt8) : Except UbError DataExtHeader := do
  if buf.length < dataExtHeaderSize then
    throw (.internal "DATA ext header too short")
  let (verbU8, cur) ← readField 1 buf
  match Verb.fromU8 (UInt8.ofNat verbU8) with
  | none => throw (.internal ("unknown verb: " ++ toString verbU8))
  | some verb =>
    let (extFlagsU8, cur) ← readField 1 cur
    let extFlags := ExtFlags.fromBitsTruncate (UInt8.ofNat extFlagsU8)
    let (_, cur) ← readField 2 cur
    let (mrHandle, cur) ← readField 4 cur
    let (jettySrc, cur) ← readField 4 cur
    let (jettyDst, cur) ← readField 4 cur
    let (opaqueId, cur) ← readField 8 cur
    let (fragId, cur) ← readField 4 cur
    let (fragIndex, cur) ← readField 2 cur
    let (fragTotal, cur) ← readField 2 cur
    let (addrBytes, cur) ← readExact 16 cur
    let imm ←
      if extFlags.contains ExtFlags.hasImm then do
        let (imm, _) ← readField 8 cur
        pure (some (UInt64.ofNat imm))
      else pure none
    return {
      verb, extFlags, imm
      mrHandle := UInt32.ofNat mrHandle
      jettySrc := UInt32.ofNat jettySrc
      jettyDst := UInt32.ofNat jettyDst
      opaqueId := UInt64.ofNat opaqueId
      fragId := UInt32.ofNat fragId
      fragIndex := UInt16.ofNat fragIndex
      fragTotal := UInt16.ofNat fragTotal
      ubAddr := UbAddr.fromBytes addrBytes }

/-- The part of `decode_frame` that reads the generic header. -/
def decodeHeader (buf : List UInt8) : Except UbError FrameHeader := do
  if buf.length < frameHeaderSize then
    throw (.internal "frame too short for header")
  let (magic', cur) ← readField 4 buf
  if UInt32.ofNat magic' ≠ magic then
    throw (.internal ("invalid magic: 0x" ++ hex 8 magic'))
  let (version', cur) ← readField 1 cur
  if UInt8.ofNat version' ≠ version then
    throw (.internal ("version mismatch: " ++ toString version'))
  let (frameTypeU8, cur) ← readField 1 cur
  match FrameType.fromU8 (UInt8.ofNat frameTypeU8) with
  | none => throw (.internal ("unknown frame type: " ++ toString frameTypeU8))
  | some frameType =>
    let (flags, cur) ← readField 2 cur
    let (srcNode, cur) ← readField 2 cur
    let (dstNode, cur) ← readField 2 cur
    let (reserved, cur) ← readField 4 cur
    let (streamSeq, cur) ← readField 8 cur
    let (payloadLen, cur) ← readField 4 cur
    let (headerCrc, _) ← readField 4 cur
    return {
      frameType
      magic := UInt32.ofNat magic'
      version := UInt8.ofNat version'
      flags := FrameFlags.fromBitsTruncate (UInt16.ofNat flags)
      srcNode := UInt16.ofNat srcNode
      dstNode := UInt16.ofNat dstNode
      reserved := UInt32.ofNat reserved
      streamSeq := UInt64.ofNat streamSeq
      payloadLen := UInt32.ofNat payloadLen
      headerCrc := UInt32.ofNat headerCrc }

def DataExtHeader.size (ext : DataExtHeader) : ℕ :=
  if ext.imm.isSome then dataExtHeaderImmSize else dataExtHeaderSize

def decodeFrame (buf : List UInt8) :
    Except UbError (FrameHeader × Option DataExtHeader × List UInt8) := do
  let header ← decodeHeader buf
  if header.frameType = FrameType.data then
    let ext ← decodeDataExtHeader (buf.drop frameHeaderSize)
    return (header, some ext, buf.drop (frameHeaderSize + ext.size))
  else
    return (header, none, buf.drop frameHeaderSize)

def encodeAckPayload (ack : AckPayload) : List UInt8 :=
  put 8 ack.ackSeq.toNat ++ put 4 ack.creditGrant.toNat ++ put 4 ack.reserved.toNat ++
    (match ack.sackBitmap with
      | some bitmap => bitmap.toList
      | none => [])

def decodeAckPayload (buf : List UInt8) (hasSack : Bool) : Except UbError AckPayload := do
  if buf.length < 16 then
    throw (.internal "ACK payload too short")
  let (ackSeq, cur) ← readField 8 buf
  let (creditGrant, cur) ← readField 4 cur
  let (reserved, cur) ← readField 4 cur
  let sackBitmap ←
    if hasSack then
      if h : buf.length < 48 then throw (.internal "ACK payload too short for SACK")
      else pure (some ⟨((buf.drop 16).take 32).toArray, by simp; omega⟩)
    else pure none
  return {
    sackBitmap
    ackSeq := UInt64.ofNat ackSeq
    creditGrant := UInt32.ofNat creditGrant
    reserved := UInt32.ofNat reserved }

def encodeCreditPayload (credit : CreditPayload) : List UInt8 :=
  put 4 credit.credits.toNat ++ put 4 credit.reserved.toNat

def decodeCreditPayload (buf : List UInt8) : Except UbError CreditPayload := do
  if buf.length < 8 then
    throw (.internal "CREDIT payload too short")
  let (credits, cur) ← readField 4 buf
  let (reserved, _) ← readField 4 cur
  return { credits := UInt32.ofNat credits, reserved := UInt32.ofNat reserved }

@[simp] theorem readField_put_append (k v : ℕ) (rest : List UInt8) :
    readField k (put k v ++ rest) = .ok (v % 256 ^ k, rest) := by
  simp [readField]

theorem readField_put (k v : ℕ) : readField k (put k v) = .ok (v % 256 ^ k, []) := by
  simpa using readField_put_append k v []

@[simp] theorem readExact_toBytes_append (a : UbAddr) (rest : List UInt8) :
    readExact 16 (a.toBytes ++ rest) = .ok (a.toBytes, rest) := by
  have htake : (a.toBytes ++ rest).take 16 = a.toBytes := List.take_left' a.length_toBytes
  have hdrop : (a.toBytes ++ rest).drop 16 = rest := List.drop_left' a.length_toBytes
  rw [readExact, if_neg (by simp), htake, hdrop]

theorem decodeAckPayload_encode (ack : AckPayload) :
    decodeAckPayload (encodeAckPayload ack) ack.sackBitmap.isSome = .ok ack := by
  obtain ⟨ackSeq, creditGrant, reserved, bitmap⟩ := ack
  cases bitmap with
  | none =>
    simp [decodeAckPayload, encodeAckPayload, bind, Except.bind, pure, Except.pure, readField_put]
  | some bitmap =>
    have hdrop : (put 8 ackSeq.toNat ++ (put 4 creditGrant.toNat ++ (put 4 reserved.toNat ++
        bitmap.toList))).drop 16 = bitmap.toList := by
      rw [← List.append_assoc, ← List.append_assoc]
      exact List.drop_left' (by simp)
    have htake : bitmap.toList.take 32 = bitmap.toList := List.take_of_length_le (by simp)
    have harray : bitmap.toList.toArray = bitmap.toArray := rfl
    simp [decodeAckPayload, encodeAckPayload, bind, Except.bind, pure, Except.pure, hdrop, htake,
      harray]

theorem decodeCreditPayload_encode (credit : CreditPayload) :
    decodeCreditPayload (encodeCreditPayload credit) = .ok credit := by
  simp [decodeCreditPayload, encodeCreditPayload, bind, Except.bind, pure, Except.pure,
    readField_put]

@[simp] theorem length_encodeHeader (header : FrameHeader) :
    (encodeHeader header).length = frameHeaderSize := by
  simp [encodeHeader, frameHeaderSize]

theorem length_encodeDataExtHeader (ext : DataExtHeader) :
    (encodeDataExtHeader ext).length = ext.size := by
  cases h : ext.imm <;>
    simp [encodeDataExtHeader, DataExtHeader.size, h, dataExtHeaderImmSize, dataExtHeaderSize]

/-- An extension header the decoder reproduces: known flag bits, and an
immediate exactly when the flag announces one. -/
structure DataExtHeader.WellFormed (ext : DataExtHeader) : Prop where
  known : ext.extFlags.Known
  imm_iff : ext.imm.isSome = ext.extFlags.contains ExtFlags.hasImm

theorem decodeDataExtHeader_encode {ext : DataExtHeader} (h : ext.WellFormed)
    (rest : List UInt8) :
    decodeDataExtHeader (encodeDataExtHeader ext ++ rest) = .ok ext := by
  have hlen : ¬ (encodeDataExtHeader ext ++ rest).length < dataExtHeaderSize := by
    rw [List.length_append, length_encodeDataExtHeader]
    simp only [DataExtHeader.size, dataExtHeaderImmSize, dataExtHeaderSize]
    split_ifs <;> omega
  have himm := h.imm_iff
  obtain ⟨verb, extFlags, mr, src, dst, opaqueId, fragId, index, total, addr, imm⟩ := ext
  rw [decodeDataExtHeader, if_neg hlen]
  simp only [encodeDataExtHeader, List.append_assoc]
  cases imm with
  | none =>
    have hc : extFlags.contains ExtFlags.hasImm = false := himm.symm
    simp [bind, Except.bind, pure, Except.pure, h.known.fromBitsTruncate, hc]
  | some imm =>
    have hc : extFlags.contains ExtFlags.hasImm = true := himm.symm
    simp [bind, Except.bind, pure, Except.pure, h.known.fromBitsTruncate, hc]

/-- A header with the constants the decoder insists on. -/
structure FrameHeader.WellFormed (header : FrameHeader) : Prop where
  magic_eq : header.magic = Wire.magic
  version_eq : header.version = Wire.version
  known : header.flags.Known

theorem decodeHeader_encode {header : FrameHeader} (h : header.WellFormed)
    (rest : List UInt8) : decodeHeader (encodeHeader header ++ rest) = .ok header := by
  have hlen : ¬ (encodeHeader header ++ rest).length < frameHeaderSize := by simp
  have hflags := h.known.fromBitsTruncate
  obtain ⟨magic', version', type, flags, src, dst, reserved, seq, len, crc⟩ := header
  obtain rfl : magic' = magic := h.magic_eq
  obtain rfl : version' = version := h.version_eq
  rw [decodeHeader, if_neg hlen]
  simp only [encodeHeader, List.append_assoc]
  simp [bind, Except.bind, pure, Except.pure, hflags]

theorem decodeFrame_encode_data {header : FrameHeader} {ext : DataExtHeader}
    (hh : header.WellFormed) (ht : header.frameType = FrameType.data) (he : ext.WellFormed)
    (payload : List UInt8) :
    decodeFrame (encodeFrame header (some ext) payload) = .ok (header, some ext, payload) := by
  have hrest : (encodeFrame header (some ext) payload).drop frameHeaderSize =
      encodeDataExtHeader ext ++ payload := by
    rw [encodeFrame, List.append_assoc, List.drop_left' (length_encodeHeader header)]
  have hpayload : (encodeFrame header (some ext) payload).drop (frameHeaderSize + ext.size) =
      payload := by
    rw [← List.drop_drop, hrest, List.drop_left' (length_encodeDataExtHeader ext)]
  have hheader : decodeHeader (encodeFrame header (some ext) payload) = .ok header := by
    rw [encodeFrame, List.append_assoc]
    exact decodeHeader_encode hh _
  rw [decodeFrame, hheader, hrest]
  simp [bind, Except.bind, pure, Except.pure, ht, decodeDataExtHeader_encode he, hpayload]

theorem decodeFrame_encode_control {header : FrameHeader} (hh : header.WellFormed)
    (ht : header.frameType ≠ FrameType.data) (payload : List UInt8) :
    decodeFrame (encodeFrame header none payload) = .ok (header, none, payload) := by
  have hrest : (encodeFrame header none payload).drop frameHeaderSize = payload := by
    rw [encodeFrame, List.append_nil, List.drop_left' (length_encodeHeader header)]
  have hheader : decodeHeader (encodeFrame header none payload) = .ok header := by
    rw [encodeFrame, List.append_assoc]
    exact decodeHeader_encode hh _
  rw [decodeFrame, hheader, hrest]
  simp [bind, Except.bind, pure, Except.pure, ht]

/-- Decoding a whole frame gives back what was encoded: the header, the
extension header if there is one, and the payload. -/
theorem decode_encode_frame {header : FrameHeader} {ext : Option DataExtHeader}
    (hheader : header.WellFormed) (hpresent : ext.isSome = true ↔ header.frameType = .data)
    (hext : ∀ e, ext = some e → e.WellFormed) (payload : List UInt8) :
    decodeFrame (encodeFrame header ext payload) = .ok (header, ext, payload) := by
  cases ext with
  | none =>
    have htype : header.frameType ≠ .data := by simpa using hpresent
    exact decodeFrame_encode_control hheader htype payload
  | some e =>
    have htype : header.frameType = .data := by simpa using hpresent
    exact decodeFrame_encode_data hheader htype (hext e rfl) payload

theorem decode_encode_frame_write_imm :
    decodeFrame (encodeFrame
        ⟨magic, version, .data, FrameFlags.ackReq, 1, 2, 0, 7, 3, 0⟩
        (some ⟨.writeImm, ExtFlags.hasImm, 5, 1, 2, 9, 0, 0, 1, UbAddr.new 1 2 0 64 0, some 42⟩)
        [1, 2, 3]) =
      .ok (⟨magic, version, .data, FrameFlags.ackReq, 1, 2, 0, 7, 3, 0⟩,
        some ⟨.writeImm, ExtFlags.hasImm, 5, 1, 2, 9, 0, 0, 1, UbAddr.new 1 2 0 64 0, some 42⟩,
        [1, 2, 3]) := by
  apply decode_encode_frame
  · exact ⟨rfl, rfl, by decide⟩
  · decide
  · rintro e ⟨⟩
    exact ⟨by decide, by decide⟩

end UniBus.Wire
