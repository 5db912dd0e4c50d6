import UniBus.Foundations.Bytes
import UniBus.Wire.Codec

/-!
# Which byte strings are frames

The acceptance condition of `decode_frame` read off the bytes, and what encoding
the result again gives back. In between stand the headers as the bytes spell
them, before any flag is truncated or any number looked up.
-/
namespace UniBus.Wire

open BigEndian (put get)

/-! ## Slices with bounds -/

/-- The slice `&buf[from..]`; it is `none` where the program would panic. -/
def sliceFrom (buf : List UInt8) (pos : ℕ) : Option (List UInt8) :=
  if pos ≤ buf.length then some (buf.drop pos) else none

/-- `decode_frame` with its two slices checked. -/
def decodeFrameIndexed (buf : List UInt8) :
    Option (Except UbError (FrameHeader × Option DataExtHeader × List UInt8)) :=
  match decodeHeader buf with
  | .error e => some (.error e)
  | .ok header => do
    let rest ← sliceFrom buf frameHeaderSize
    if header.frameType = .data then
      match decodeDataExtHeader rest with
      | .error e => some (.error e)
      | .ok ext =>
        let payload ← sliceFrom buf (frameHeaderSize + ext.size)
        some (.ok (header, some ext, payload))
    else
      let payload ← sliceFrom buf frameHeaderSize
      some (.ok (header, none, payload))

/-! ## The acceptance condition -/

def typeAt (b : List UInt8) : Option FrameType := b[5]?.bind FrameType.fromU8

def verbAt (b : List UInt8) : Option Verb := b[32]?.bind Verb.fromU8

/-- The HAS_IMM bit of the extension flags. -/
def hasImmAt (b : List UInt8) : Bool := b[33]?.any fun flags => flags &&& 1 == 1

/-- A generic header with the right constants, and after it, in a DATA frame, an
extension header with a known verb and room for the immediate it announces. -/
structure IsFrame (b : List UInt8) : Prop where
  length : 32 ≤ b.length
  magic_eq : get (Bytes.slice b 0 4) = magic.toNat
  version_eq : b[4]? = some version
  typed : ∃ t, typeAt b = some t
  data : typeAt b = some .data → 32 + 48 ≤ b.length ∧ (∃ v, verbAt b = some v) ∧
    (hasImmAt b = true → 32 + 56 ≤ b.length)

/-- The same bytes with the undefined flag bits cleared and, in a DATA frame,
the undefined extension flag bits and the reserved field. -/
def canonical (b : List UInt8) : List UInt8 :=
  let flags := UInt16.ofNat (get (Bytes.slice b 6 2)) &&& FrameFlags.all
  let cleared := Bytes.splice b 6 (put 2 flags.toNat)
  if typeAt b = some .data then
    let extFlags := UInt8.ofNat (get (Bytes.slice b 33 1)) &&& ExtFlags.all
    Bytes.splice cleared 33 (put 1 extFlags.toNat ++ put 2 0)
  else cleared

/-! ## Headers as the bytes spell them -/

structure RawHeader where
  magic : UInt32
  version : UInt8
  frameType : UInt8
  flags : UInt16
  srcNode : UInt16
  dstNode : UInt16
  reserved : UInt32
  streamSeq : UInt64
  payloadLen : UInt32
  headerCrc : UInt32

namespace RawHeader

def bytes (r : RawHeader) : List UInt8 :=
  put 4 r.magic.toNat ++ (put 1 r.version.toNat ++ (put 1 r.frameType.toNat ++
    (put 2 r.flags.toNat ++ (put 2 r.srcNode.toNat ++ (put 2 r.dstNode.toNat ++
    (put 4 r.reserved.toNat ++ (put 8 r.streamSeq.toNat ++ (put 4 r.payloadLen.toNat ++
    put 4 r.headerCrc.toNat))))))))

@[simp] theorem length_bytes (r : RawHeader) : r.bytes.length = 32 := by
  simp [bytes]

/-- The header that is returned when the frame type is known. -/
def header (r : RawHeader) (frameType : FrameType) : FrameHeader :=
  ⟨r.magic, r.version, frameType, FrameFlags.fromBitsTruncate r.flags, r.srcNode, r.dstNode,
    r.reserved, r.streamSeq, r.payloadLen, r.headerCrc⟩

end RawHeader

structure RawExt where
  verb : UInt8
  extFlags : UInt8
  reserved : UInt16
  mrHandle : UInt32
  jettySrc : UInt32
  jettyDst : UInt32
  opaqueId : UInt64
  fragId : UInt32
  fragIndex : UInt16
  fragTotal : UInt16
  ubAddr : UbAddr

namespace RawExt

def bytes (r : RawExt) : List UInt8 :=
  put 1 r.verb.toNat ++ (put 1 r.extFlags.toNat ++ (put 2 r.reserved.toNat ++
    (put 4 r.mrHandle.toNat ++ (put 4 r.jettySrc.toNat ++ (put 4 r.jettyDst.toNat ++
    (put 8 r.opaqueId.toNat ++ (put 4 r.fragId.toNat ++ (put 2 r.fragIndex.toNat ++
    (put 2 r.fragTotal.toNat ++ r.ubAddr.toBytes)))))))))

@[simp] theorem length_bytes (r : RawExt) : r.bytes.length = 48 := by
  simp [bytes]

def hasImm (r : RawExt) : Bool := r.extFlags &&& 1 == 1

/-- The immediate that the flags announce, read from the bytes after the header. -/
def imm (r : RawExt) (rest : List UInt8) : Option UInt64 :=
  if r.hasImm then some (UInt64.ofNat (get (rest.take 8))) else none

/-- The extension header that is returned when the verb is known. -/
def ext (r : RawExt) (verb : Verb) (rest : List UInt8) : DataExtHeader :=
  ⟨verb, ExtFlags.fromBitsTruncate r.extFlags, r.mrHandle, r.jettySrc, r.jettyDst, r.opaqueId,
    r.fragId, r.fragIndex, r.fragTotal, r.ubAddr, r.imm rest⟩

theorem contains_hasImm (r : RawExt) :
    (ExtFlags.fromBitsTruncate r.extFlags).contains ExtFlags.hasImm = r.hasImm := by
  have hand : r.extFlags &&& 7 &&& 1 = r.extFlags &&& 1 := by
    rw [UInt8.and_assoc]
    rfl
  simp only [ExtFlags.contains, ExtFlags.fromBitsTruncate, ExtFlags.hasImm, ExtFlags.all, hand]
  rfl

end RawExt

theorem exists_field {α : Type} (toNat : α → ℕ) (ofNat : ℕ → α) {k : ℕ}
    (hof : ∀ v < 256 ^ k, toNat (ofNat v) = v) (n : ℕ) {b : List UInt8} (h : k + n ≤ b.length) :
    ∃ a rest, n ≤ rest.length ∧ b = put k (toNat a) ++ rest := by
  have hlen : (b.take k).length = k := by
    rw [List.length_take]
    omega
  have hlt := BigEndian.get_lt (b.take k)
  have hput := BigEndian.put_get (b.take k)
  rw [hlen] at hlt hput
  refine ⟨ofNat (get (b.take k)), b.drop k, ?_, ?_⟩
  · rw [List.length_drop]
    omega
  · rw [hof _ hlt, hput, List.take_append_drop]

section
variable {b : List UInt8}

theorem exists_u8 (n : ℕ) (h : 1 + n ≤ b.length) :
    ∃ (v : UInt8) (rest : List UInt8), n ≤ rest.length ∧ b = put 1 v.toNat ++ rest :=
  exists_field UInt8.toNat UInt8.ofNat (fun _ hv => UInt8.toNat_ofNat_of_lt' hv) n h

theorem exists_u16 (n : ℕ) (h : 2 + n ≤ b.length) :
    ∃ (v : UInt16) (rest : List UInt8), n ≤ rest.length ∧ b = put 2 v.toNat ++ rest :=
  exists_field UInt16.toNat UInt16.ofNat (fun _ hv => UInt16.toNat_ofNat_of_lt' hv) n h

theorem exists_u32 (n : ℕ) (h : 4 + n ≤ b.length) :
    ∃ (v : UInt32) (rest : List UInt8), n ≤ rest.length ∧ b = put 4 v.toNat ++ rest :=
  exists_field UInt32.toNat UInt32.ofNat (fun _ hv => UInt32.toNat_ofNat_of_lt' hv) n h

theorem exists_u64 (n : ℕ) (h : 8 + n ≤ b.length) :
    ∃ (v : UInt64) (rest : List UInt8), n ≤ rest.length ∧ b = put 8 v.toNat ++ rest :=
  exists_field UInt64.toNat UInt64.ofNat (fun _ hv => UInt64.toNat_ofNat_of_lt' hv) n h

theorem exists_addr (n : ℕ) (h : 16 + n ≤ b.length) :
    ∃ (a : UbAddr) (rest : List UInt8), n ≤ rest.length ∧ b = a.toBytes ++ rest :=
  exists_field (fun a : UbAddr => a.val.toNat) (fun v => ⟨BitVec.ofNat 128 v⟩)
    (fun v hv => by simpa using hv) n h

theorem exists_rawHeader (h : 32 ≤ b.length) :
    ∃ (r : RawHeader) (rest : List UInt8), b = r.bytes ++ rest := by
  obtain ⟨magic, b₁, h₁, rfl⟩ := exists_u32 28 h
  obtain ⟨version, b₂, h₂, rfl⟩ := exists_u8 27 h₁
  obtain ⟨frameType, b₃, h₃, rfl⟩ := exists_u8 26 h₂
  obtain ⟨flags, b₄, h₄, rfl⟩ := exists_u16 24 h₃
  obtain ⟨srcNode, b₅, h₅, rfl⟩ := exists_u16 22 h₄
  obtain ⟨dstNode, b₆, h₆, rfl⟩ := exists_u16 20 h₅
  obtain ⟨reserved, b₇, h₇, rfl⟩ := exists_u32 16 h₆
  obtain ⟨streamSeq, b₈, h₈, rfl⟩ := exists_u64 8 h₇
  obtain ⟨payloadLen, b₉, h₉, rfl⟩ := exists_u32 4 h₈
  obtain ⟨headerCrc, b₁₀, h₁₀, rfl⟩ := exists_u32 0 h₉
  exact ⟨⟨magic, version, frameType, flags, srcNode, dstNode, reserved, streamSeq, payloadLen,
    headerCrc⟩, b₁₀, by simp [RawHeader.bytes]⟩

theorem exists_rawExt (h : 48 ≤ b.length) :
    ∃ (r : RawExt) (rest : List UInt8), b = r.bytes ++ rest := by
  obtain ⟨verb, b₁, h₁, rfl⟩ := exists_u8 47 h
  obtain ⟨extFlags, b₂, h₂, rfl⟩ := exists_u8 46 h₁
  obtain ⟨reserved, b₃, h₃, rfl⟩ := exists_u16 44 h₂
  obtain ⟨mrHandle, b₄, h₄, rfl⟩ := exists_u32 40 h₃
  obtain ⟨jettySrc, b₅, h₅, rfl⟩ := exists_u32 36 h₄
  obtain ⟨jettyDst, b₆, h₆, rfl⟩ := exists_u32 32 h₅
  obtain ⟨opaqueId, b₇, h₇, rfl⟩ := exists_u64 24 h₆
  obtain ⟨fragId, b₈, h₈, rfl⟩ := exists_u32 20 h₇
  obtain ⟨fragIndex, b₉, h₉, rfl⟩ := exists_u16 18 h₈
  obtain ⟨fragTotal, b₁₀, h₁₀, rfl⟩ := exists_u16 16 h₉
  obtain ⟨ubAddr, b₁₁, h₁₁, rfl⟩ := exists_addr 0 h₁₀
  exact ⟨⟨verb, extFlags, reserved, mrHandle, jettySrc, jettyDst, opaqueId, fragId, fragIndex,
    fragTotal, ubAddr⟩, b₁₁, by simp [RawExt.bytes]⟩

end

/-! ## Decoding spelled headers -/

theorem decodeHeader_short {b : List UInt8} (h : b.length < frameHeaderSize)
    (header : FrameHeader) : decodeHeader b ≠ .ok header := by
  rw [decodeHeader, if_pos h]
  exact fun hok => by cases hok

theorem decodeHeader_bytes_ok_iff (r : RawHeader) (rest : List UInt8) (header : FrameHeader) :
    decodeHeader (r.bytes ++ rest) = .ok header ↔
      r.magic = magic ∧ r.version = version ∧
        ∃ t, FrameType.fromU8 r.frameType = some t ∧ header = r.header t := by
  have hlen : ¬ (r.bytes ++ rest).length < frameHeaderSize := by
    simp [frameHeaderSize]
  rw [decodeHeader, if_neg hlen]
  simp only [RawHeader.bytes, List.append_assoc]
  by_cases hmagic : r.magic = magic
  · by_cases hversion : r.version = version
    · cases htype : FrameType.fromU8 r.frameType with
      | none =>
        simp [bind, Except.bind, throw, throwThe, MonadExceptOf.throw, hmagic, hversion, htype]
      | some t =>
        simp [bind, Except.bind, pure, Except.pure, hmagic, hversion, htype, RawHeader.header,
          eq_comm]
    · simp [bind, Except.bind, throw, throwThe, MonadExceptOf.throw, hmagic, hversion]
  · simp [bind, Except.bind, throw, throwThe, MonadExceptOf.throw, hmagic]

theorem decodeDataExtHeader_short {b : List UInt8} (h : b.length < dataExtHeaderSize)
    (ext : DataExtHeader) : decodeDataExtHeader b ≠ .ok ext := by
  rw [decodeDataExtHeader, if_pos h]
  exact fun hok => by cases hok

theorem readField_eq (k : ℕ) (b : List UInt8) :
    readField k b = if b.length < k then .error (.internal "failed to fill whole buffer")
      else .ok (get (b.take k), b.drop k) := by
  rw [readField, BigEndian.read]
  split_ifs <;> rfl

theorem decodeDataExtHeader_bytes_ok_iff (r : RawExt) (rest : List UInt8) (ext : DataExtHeader) :
    decodeDataExtHeader (r.bytes ++ rest) = .ok ext ↔
      ∃ v, Verb.fromU8 r.verb = some v ∧ (r.hasImm = true → 8 ≤ rest.length) ∧
        ext = r.ext v rest := by
  have hlen : ¬ (r.bytes ++ rest).length < dataExtHeaderSize := by
    simp [dataExtHeaderSize]
  have himm := r.contains_hasImm
  rw [decodeDataExtHeader, if_neg hlen]
  simp only [RawExt.bytes, List.append_assoc]
  cases hverb : Verb.fromU8 r.verb with
  | none => simp [bind, Except.bind, throw, throwThe, MonadExceptOf.throw, hverb]
  | some v =>
    cases hflag : r.hasImm with
    | false =>
      rw [hflag] at himm
      simp [bind, Except.bind, pure, Except.pure, hverb, himm, RawExt.ext, RawExt.imm, hflag,
        eq_comm]
    | true =>
      rw [hflag] at himm
      have hread := readField_eq 8 rest
      split_ifs at hread with hshort
      · simp [bind, Except.bind, hverb, himm, hread, hshort]
      · simp [bind, Except.bind, pure, Except.pure, hverb, himm, hread, RawExt.ext, RawExt.imm,
          hflag, Nat.not_lt.mp hshort, eq_comm]

theorem decodeFrame_ok_iff (b : List UInt8) (header : FrameHeader) (ext : Option DataExtHeader)
    (payload : List UInt8) :
    decodeFrame b = .ok (header, ext, payload) ↔
      decodeHeader b = .ok header ∧
        ((header.frameType ≠ .data ∧ ext = none ∧ payload = b.drop 32) ∨
          (header.frameType = .data ∧ ∃ e, decodeDataExtHeader (b.drop 32) = .ok e ∧
            ext = some e ∧ payload = b.drop (32 + e.size))) := by
  unfold decodeFrame
  cases hheader : decodeHeader b with
  | error e => simp [bind, Except.bind]
  | ok h =>
    by_cases htype : h.frameType = .data
    · cases hext : decodeDataExtHeader (b.drop 32) with
      | error e =>
        simp only [bind, Except.bind, if_pos htype, frameHeaderSize, hext]
        constructor
        · rintro ⟨⟩
        · rintro ⟨hh, ⟨hne, -⟩ | ⟨-, e', he', -⟩⟩
          · cases hh
            exact absurd htype hne
          · cases he'
      | ok e =>
        simp only [bind, Except.bind, if_pos htype, frameHeaderSize, hext, pure, Except.pure,
          Except.ok.injEq, Prod.mk.injEq]
        constructor
        · rintro ⟨rfl, rfl, rfl⟩
          exact ⟨rfl, Or.inr ⟨htype, e, rfl, rfl, rfl⟩⟩
        · rintro ⟨rfl, ⟨hne, -⟩ | ⟨-, e', rfl, rfl, rfl⟩⟩
          · exact absurd htype hne
          · exact ⟨rfl, rfl, rfl⟩
    · simp only [bind, Except.bind, if_neg htype, frameHeaderSize, pure, Except.pure,
        Except.ok.injEq, Prod.mk.injEq]
      constructor
      · rintro ⟨rfl, rfl, rfl⟩
        exact ⟨rfl, Or.inl ⟨htype, rfl, rfl⟩⟩
      · rintro ⟨rfl, ⟨-, rfl, rfl⟩ | ⟨heq, -⟩⟩
        · exact ⟨rfl, rfl, rfl⟩
        · exact absurd heq htype

/-! ## Fields at their positions -/

namespace RawHeader

variable (r : RawHeader) (rest : List UInt8)

def beforeFlags : List UInt8 :=
  put 4 r.magic.toNat ++ (put 1 r.version.toNat ++ put 1 r.frameType.toNat)

def afterFlags : List UInt8 :=
  put 2 r.srcNode.toNat ++ (put 2 r.dstNode.toNat ++ (put 4 r.reserved.toNat ++
    (put 8 r.streamSeq.toNat ++ (put 4 r.payloadLen.toNat ++ put 4 r.headerCrc.toNat))))

theorem bytes_append : r.bytes ++ rest =
    r.beforeFlags ++ (put 2 r.flags.toNat ++ (r.afterFlags ++ rest)) := by
  simp [bytes, beforeFlags, afterFlags]

theorem length_beforeFlags : r.beforeFlags.length = 6 := by
  simp [beforeFlags]

theorem magic_at : get (Bytes.slice (r.bytes ++ rest) 0 4) = r.magic.toNat := by
  have hslice : Bytes.slice (r.bytes ++ rest) 0 4 = put 4 r.magic.toNat := by
    rw [bytes, List.append_assoc]
    exact Bytes.slice_append List.length_nil (BigEndian.length_put _ _)
  have hlt : r.magic.toNat < 256 ^ 4 := r.magic.toNat_lt
  rw [hslice, BigEndian.get_put, Nat.mod_eq_of_lt hlt]

theorem version_at : (r.bytes ++ rest)[4]? = some r.version := by
  simp [bytes, put]

theorem frameType_at : (r.bytes ++ rest)[5]? = some r.frameType := by
  simp [bytes, put]

theorem splice_flags (flags : UInt16) :
    Bytes.splice (r.bytes ++ rest) 6 (put 2 flags.toNat) =
      { r with flags := flags }.bytes ++ rest := by
  rw [bytes_append, bytes_append, Bytes.splice_append r.length_beforeFlags (by simp)]
  rfl

theorem flags_at : UInt16.ofNat (get (Bytes.slice (r.bytes ++ rest) 6 2)) = r.flags := by
  rw [bytes_append, Bytes.slice_append r.length_beforeFlags (by simp), BigEndian.get_put]
  simp

def beforeSeq : List UInt8 :=
  r.beforeFlags ++ (put 2 r.flags.toNat ++ (put 2 r.srcNode.toNat ++ (put 2 r.dstNode.toNat ++
    put 4 r.reserved.toNat)))

def afterSeq : List UInt8 := put 4 r.payloadLen.toNat ++ put 4 r.headerCrc.toNat

theorem bytes_append_seq : r.bytes ++ rest =
    r.beforeSeq ++ (put 8 r.streamSeq.toNat ++ (r.afterSeq ++ rest)) := by
  simp [bytes, beforeSeq, beforeFlags, afterSeq]

theorem length_beforeSeq : r.beforeSeq.length = 16 := by
  simp [beforeSeq, length_beforeFlags]

theorem splice_streamSeq (seq : UInt64) :
    Bytes.splice (r.bytes ++ rest) 16 (put 8 seq.toNat) =
      { r with streamSeq := seq }.bytes ++ rest := by
  rw [bytes_append_seq, bytes_append_seq, Bytes.splice_append r.length_beforeSeq (by simp)]
  rfl

theorem streamSeq_at : get (Bytes.slice (r.bytes ++ rest) 16 8) = r.streamSeq.toNat := by
  have hlt : r.streamSeq.toNat < 256 ^ 8 := r.streamSeq.toNat_lt
  rw [bytes_append_seq, Bytes.slice_append r.length_beforeSeq (by simp), BigEndian.get_put,
    Nat.mod_eq_of_lt hlt]

end RawHeader

namespace RawExt

variable (h : RawHeader) (r : RawExt) (rest : List UInt8)

def afterReserved : List UInt8 :=
  put 4 r.mrHandle.toNat ++ (put 4 r.jettySrc.toNat ++ (put 4 r.jettyDst.toNat ++
    (put 8 r.opaqueId.toNat ++ (put 4 r.fragId.toNat ++ (put 2 r.fragIndex.toNat ++
    (put 2 r.fragTotal.toNat ++ r.ubAddr.toBytes))))))

theorem bytes_append : h.bytes ++ (r.bytes ++ rest) =
    (h.bytes ++ put 1 r.verb.toNat) ++
      (put 1 r.extFlags.toNat ++ (put 2 r.reserved.toNat ++ (r.afterReserved ++ rest))) := by
  simp [bytes, afterReserved]

theorem length_append : (h.bytes ++ (r.bytes ++ rest)).length = 80 + rest.length := by
  simp only [List.length_append, RawHeader.length_bytes, length_bytes]
  omega

theorem length_before : (h.bytes ++ put 1 r.verb.toNat).length = 33 := by
  simp

theorem verb_at : (h.bytes ++ (r.bytes ++ rest))[32]? = some r.verb := by
  rw [List.getElem?_append_right (by simp), h.length_bytes]
  simp [bytes, put]

theorem extFlags_at : (h.bytes ++ (r.bytes ++ rest))[33]? = some r.extFlags := by
  rw [List.getElem?_append_right (by simp), h.length_bytes]
  simp [bytes, put]

theorem extFlags_slice :
    UInt8.ofNat (get (Bytes.slice (h.bytes ++ (r.bytes ++ rest)) 33 1)) = r.extFlags := by
  rw [bytes_append, Bytes.slice_append (length_before h r) (by simp), BigEndian.get_put]
  simp

theorem splice_extFlags (extFlags : UInt8) :
    Bytes.splice (h.bytes ++ (r.bytes ++ rest)) 33 (put 1 extFlags.toNat ++ put 2 0) =
      h.bytes ++ ({ r with extFlags := extFlags, reserved := 0 }.bytes ++ rest) := by
  have hold : put 1 r.extFlags.toNat ++ (put 2 r.reserved.toNat ++ (r.afterReserved ++ rest)) =
      (put 1 r.extFlags.toNat ++ put 2 r.reserved.toNat) ++ (r.afterReserved ++ rest) := by
    rw [List.append_assoc]
  rw [bytes_append, bytes_append, hold, Bytes.splice_append (length_before h r) (by simp),
    List.append_assoc (put 1 extFlags.toNat)]
  rfl

theorem size_ext (v : Verb) : (r.ext v rest).size = 48 + if r.hasImm then 8 else 0 := by
  cases hflag : r.hasImm <;>
    simp [DataExtHeader.size, ext, imm, hflag, dataExtHeaderSize, dataExtHeaderImmSize]

theorem imm_cases (himm : r.hasImm = true → 8 ≤ rest.length) :
    (r.hasImm = false ∧ r.imm rest = none) ∨
      (r.hasImm = true ∧ ∃ imm, r.imm rest = some imm ∧
        rest = put 8 imm.toNat ++ rest.drop 8) := by
  cases hflag : r.hasImm with
  | false => simp [imm, hflag]
  | true =>
    right
    have hlen : (rest.take 8).length = 8 := by
      rw [List.length_take, Nat.min_eq_left (himm hflag)]
    have hlt := BigEndian.get_lt (rest.take 8)
    have hput := BigEndian.put_get (rest.take 8)
    rw [hlen] at hlt hput
    refine ⟨rfl, UInt64.ofNat (get (rest.take 8)), by simp [imm, hflag], ?_⟩
    rw [UInt64.toNat_ofNat_of_lt' hlt, hput, List.take_append_drop]

end RawExt

theorem encodeHeader_header (r : RawHeader) {t : FrameType}
    (ht : FrameType.fromU8 r.frameType = some t) :
    encodeHeader (r.header t) = { r with flags := r.flags &&& FrameFlags.all }.bytes := by
  have htype := FrameType.toU8_of_fromU8 ht
  simp [encodeHeader, RawHeader.header, RawHeader.bytes, FrameFlags.fromBitsTruncate, htype]

/-- Re-encoding a spelled extension header with what follows clears its
undefined flag bits and its reserved field. -/
theorem encodeDataExtHeader_ext (r : RawExt) (rest : List UInt8) {v : Verb}
    (hv : Verb.fromU8 r.verb = some v) (himm : r.hasImm = true → 8 ≤ rest.length) :
    encodeDataExtHeader (r.ext v rest) ++ rest.drop (if r.hasImm then 8 else 0) =
      { r with extFlags := r.extFlags &&& ExtFlags.all, reserved := 0 }.bytes ++ rest := by
  have hverb := Verb.toU8_of_fromU8 hv
  rcases r.imm_cases rest himm with ⟨hflag, hnone⟩ | ⟨hflag, imm, hsome, hrest⟩
  · simp [encodeDataExtHeader, RawExt.ext, RawExt.bytes, ExtFlags.fromBitsTruncate, hverb, hnone,
      hflag]
  · conv_rhs => rw [hrest]
    simp [encodeDataExtHeader, RawExt.ext, RawExt.bytes, ExtFlags.fromBitsTruncate, hverb, hsome,
      hflag]

/-! ## Acceptance and canonical form -/

/-- A frame, as the bytes spell it. -/
inductive Spelled : List UInt8 → FrameHeader → Option DataExtHeader → List UInt8 → Prop
  | plain (r : RawHeader) (rest : List UInt8) (t : FrameType) (hmagic : r.magic = magic)
      (hversion : r.version = version) (ht : FrameType.fromU8 r.frameType = some t)
      (hplain : t ≠ .data) : Spelled (r.bytes ++ rest) (r.header t) none rest
  | data (r : RawHeader) (x : RawExt) (rest : List UInt8) (v : Verb) (hmagic : r.magic = magic)
      (hversion : r.version = version) (ht : FrameType.fromU8 r.frameType = some .data)
      (hv : Verb.fromU8 x.verb = some v) (himm : x.hasImm = true → 8 ≤ rest.length) :
      Spelled (r.bytes ++ (x.bytes ++ rest)) (r.header .data) (some (x.ext v rest))
        (rest.drop (if x.hasImm then 8 else 0))

theorem drop_bytes (r : RawHeader) (rest : List UInt8) : (r.bytes ++ rest).drop 32 = rest :=
  List.drop_left' r.length_bytes

theorem decodeFrame_bytes_ok_iff (r : RawHeader) (rest : List UInt8) (header : FrameHeader)
    (ext : Option DataExtHeader) (payload : List UInt8) :
    decodeFrame (r.bytes ++ rest) = .ok (header, ext, payload) ↔
      r.magic = magic ∧ r.version = version ∧
        ∃ t, FrameType.fromU8 r.frameType = some t ∧ header = r.header t ∧
          ((t ≠ .data ∧ ext = none ∧ payload = rest) ∨
            (t = .data ∧ ∃ e, decodeDataExtHeader rest = .ok e ∧ ext = some e ∧
              payload = rest.drop e.size)) := by
  rw [decodeFrame_ok_iff, decodeHeader_bytes_ok_iff, drop_bytes]
  simp only [← List.drop_drop, drop_bytes]
  constructor
  · rintro ⟨⟨hmagic, hversion, t, ht, rfl⟩, hrest⟩
    exact ⟨hmagic, hversion, t, ht, rfl, hrest⟩
  · rintro ⟨hmagic, hversion, t, ht, rfl, hrest⟩
    exact ⟨⟨hmagic, hversion, t, ht, rfl⟩, hrest⟩

/-- `decode_frame` accepts exactly the spelled frames. -/
theorem decodeFrame_iff_spelled (b : List UInt8) (header : FrameHeader)
    (ext : Option DataExtHeader) (payload : List UInt8) :
    decodeFrame b = .ok (header, ext, payload) ↔ Spelled b header ext payload := by
  rw [decodeFrame_ok_iff]
  constructor
  · rintro ⟨hheader, hrest⟩
    have hlen : 32 ≤ b.length := by
      by_contra hshort
      exact decodeHeader_short (Nat.not_le.mp hshort) header hheader
    obtain ⟨r, rest, rfl⟩ := exists_rawHeader hlen
    obtain ⟨hmagic, hversion, t, ht, rfl⟩ := (decodeHeader_bytes_ok_iff r rest header).mp hheader
    rw [drop_bytes] at hrest
    rcases hrest with ⟨hplain, rfl, rfl⟩ | ⟨hdata, e, he, rfl, rfl⟩
    · exact .plain r _ t hmagic hversion ht hplain
    · obtain rfl : t = .data := hdata
      have hlen' : 48 ≤ rest.length := by
        by_contra hshort
        exact decodeDataExtHeader_short (Nat.not_le.mp hshort) e he
      obtain ⟨x, rest, rfl⟩ := exists_rawExt hlen'
      obtain ⟨v, hv, himm, rfl⟩ := (decodeDataExtHeader_bytes_ok_iff x rest e).mp he
      have hpayload : (r.bytes ++ (x.bytes ++ rest)).drop (32 + (x.ext v rest).size) =
          rest.drop (if x.hasImm then 8 else 0) := by
        rw [← List.drop_drop, drop_bytes, x.size_ext, ← List.drop_drop,
          List.drop_left' x.length_bytes]
      rw [hpayload]
      exact .data r x rest v hmagic hversion ht hv himm
  · intro h
    cases h with
    | plain r rest t hmagic hversion ht hplain =>
      refine ⟨(decodeHeader_bytes_ok_iff r _ _).mpr ⟨hmagic, hversion, t, ht, rfl⟩, ?_⟩
      rw [drop_bytes]
      exact Or.inl ⟨hplain, rfl, rfl⟩
    | data r x rest v hmagic hversion ht hv himm =>
      refine ⟨(decodeHeader_bytes_ok_iff r _ _).mpr ⟨hmagic, hversion, _, ht, rfl⟩, ?_⟩
      refine Or.inr ⟨rfl, x.ext v rest, ?_, rfl, ?_⟩
      · rw [drop_bytes]
        exact (decodeDataExtHeader_bytes_ok_iff x rest _).mpr ⟨v, hv, himm, rfl⟩
      · rw [← List.drop_drop, drop_bytes, x.size_ext, ← List.drop_drop,
          List.drop_left' x.length_bytes]

namespace Spelled

variable {b : List UInt8} {header : FrameHeader} {ext : Option DataExtHeader}
  {payload : List UInt8}

theorem payload_start (h : Spelled b header ext payload) :
    (∀ e, ext = some e → 32 + e.size ≤ b.length) ∧ 32 ≤ b.length := by
  cases h with
  | plain r _ t hmagic hversion ht hplain => simp
  | data r x rest v hmagic hversion ht hv himm =>
    refine ⟨?_, by simp⟩
    rintro e ⟨⟩
    rw [x.size_ext]
    rw [RawExt.length_append]
    split_ifs with hflag
    · have := himm hflag
      omega
    · omega

theorem isFrame (h : Spelled b header ext payload) : IsFrame b := by
  cases h with
  | plain r _ t hmagic hversion ht hplain =>
    have htype : typeAt (r.bytes ++ payload) = some t := by
      rw [typeAt, r.frameType_at]
      exact ht
    refine ⟨by simp, ?_, ?_, ⟨t, htype⟩, ?_⟩
    · rw [r.magic_at, hmagic]
    · rw [r.version_at, hversion]
    · intro hdata
      rw [htype] at hdata
      exact absurd (Option.some.inj hdata) hplain
  | data r x rest v hmagic hversion ht hv himm =>
    refine ⟨by simp, ?_, ?_, ⟨.data, ?_⟩, ?_⟩
    · rw [r.magic_at, hmagic]
    · rw [r.version_at, hversion]
    · rw [typeAt, r.frameType_at]
      exact ht
    · intro _
      rw [RawExt.length_append]
      refine ⟨by omega, ⟨v, ?_⟩, ?_⟩
      · rw [verbAt, x.verb_at]
        exact hv
      · intro hflag
        rw [hasImmAt, x.extFlags_at] at hflag
        have := himm hflag
        omega

theorem encodeFrame_eq (h : Spelled b header ext payload) :
    encodeFrame header ext payload = canonical b := by
  cases h with
  | plain r _ t hmagic hversion ht hplain =>
    have htype : typeAt (r.bytes ++ payload) ≠ some .data := by
      rw [typeAt, r.frameType_at, Option.bind_some, ht]
      exact fun hdata => hplain (Option.some.inj hdata)
    rw [canonical, r.flags_at, r.splice_flags, if_neg htype, encodeFrame, encodeHeader_header r ht,
      List.append_nil]
  | data r x rest v hmagic hversion ht hv himm =>
    have htype : typeAt (r.bytes ++ (x.bytes ++ rest)) = some .data := by
      rw [typeAt, r.frameType_at]
      exact ht
    rw [canonical, r.flags_at, r.splice_flags, if_pos htype, x.extFlags_slice, x.splice_extFlags,
      ← encodeDataExtHeader_ext x rest hv himm, encodeFrame, encodeHeader_header r ht,
      List.append_assoc]

end Spelled

theorem IsFrame.exists_spelled {b : List UInt8} (h : IsFrame b) :
    ∃ header ext payload, Spelled b header ext payload := by
  obtain ⟨r, rest, rfl⟩ := exists_rawHeader h.length
  have hmagic := h.magic_eq
  rw [r.magic_at] at hmagic
  have hversion := h.version_eq
  rw [r.version_at] at hversion
  obtain ⟨t, ht⟩ := h.typed
  have hdata := h.data
  rw [typeAt, r.frameType_at, Option.bind_some] at ht
  by_cases hplain : t = .data
  · subst hplain
    rw [typeAt, r.frameType_at, Option.bind_some] at hdata
    obtain ⟨hlen, ⟨v, hv⟩, himm⟩ := hdata ht
    have hlen' : 48 ≤ rest.length := by
      simp only [List.length_append, RawHeader.length_bytes] at hlen
      omega
    obtain ⟨x, rest, rfl⟩ := exists_rawExt hlen'
    rw [verbAt, x.verb_at, Option.bind_some] at hv
    rw [hasImmAt, x.extFlags_at] at himm
    have himm' : x.hasImm = true → 8 ≤ rest.length := by
      intro hflag
      have hroom := himm hflag
      rw [RawExt.length_append] at hroom
      omega
    exact ⟨_, _, _, .data r x rest v (UInt32.toNat_inj.mp hmagic) (Option.some.inj hversion) ht hv
      himm'⟩
  · exact ⟨_, _, _, .plain r rest t (UInt32.toNat_inj.mp hmagic) (Option.some.inj hversion) ht
      hplain⟩

/-- No slice of `decode_frame` is out of bounds. -/
theorem decodeFrameIndexed_eq (b : List UInt8) : decodeFrameIndexed b = some (decodeFrame b) := by
  cases hheader : decodeHeader b with
  | error e => simp [decodeFrameIndexed, decodeFrame, hheader, bind, Except.bind]
  | ok header =>
    have hlen : frameHeaderSize ≤ b.length := by
      by_contra hshort
      exact decodeHeader_short (Nat.not_le.mp hshort) header hheader
    by_cases htype : header.frameType = .data
    · cases hext : decodeDataExtHeader (b.drop frameHeaderSize) with
      | error e =>
        simp [decodeFrameIndexed, decodeFrame, hheader, bind, Except.bind, sliceFrom, hlen, htype,
          hext]
      | ok e =>
        have hok := (decodeFrame_ok_iff b header (some e) _).mpr
          ⟨hheader, Or.inr ⟨htype, e, hext, rfl, rfl⟩⟩
        have hstart : frameHeaderSize + e.size ≤ b.length :=
          ((decodeFrame_iff_spelled _ _ _ _).mp hok).payload_start.1 e rfl
        simp [decodeFrameIndexed, decodeFrame, hheader, bind, Except.bind, pure, Except.pure,
          sliceFrom, hlen, htype, hext, hstart]
    · simp [decodeFrameIndexed, decodeFrame, hheader, bind, Except.bind, pure, Except.pure,
        sliceFrom, hlen, htype]

/-- `decode_frame` never slices out of bounds, accepts exactly the byte strings
that `IsFrame` describes, and what it returns encodes to the canonical form. -/
theorem decode_frame_total_and_canonical (b : List UInt8) :
    decodeFrameIndexed b = some (decodeFrame b) ∧
    ((∃ frame, decodeFrame b = .ok frame) ↔ IsFrame b) ∧
    ∀ header ext payload, decodeFrame b = .ok (header, ext, payload) →
      encodeFrame header ext payload = canonical b := by
  refine ⟨decodeFrameIndexed_eq b, ⟨?_, ?_⟩, ?_⟩
  · rintro ⟨⟨header, ext, payload⟩, hok⟩
    exact ((decodeFrame_iff_spelled b header ext payload).mp hok).isFrame
  · intro h
    obtain ⟨header, ext, payload, hspelled⟩ := h.exists_spelled
    exact ⟨_, (decodeFrame_iff_spelled b header ext payload).mpr hspelled⟩
  · intro header ext payload hok
    exact ((decodeFrame_iff_spelled b header ext payload).mp hok).encodeFrame_eq

/-- A write whose undefined flag bits and reserved bytes are set. -/
def untidyWrite : List UInt8 :=
  put 4 magic.toNat ++ put 1 version.toNat ++ put 1 1 ++ put 2 0xFF81 ++ put 2 1 ++ put 2 2 ++
    put 4 0 ++ put 8 7 ++ put 4 2 ++ put 4 0 ++ put 1 3 ++ put 1 0xF8 ++ put 2 0xABCD ++
    put 4 5 ++ put 4 1 ++ put 4 2 ++ put 8 9 ++ put 4 0 ++ put 2 0 ++ put 2 1 ++ put 16 64 ++
    [10, 11]

theorem decode_frame_total_and_canonical_write :
    ∃ header ext, decodeFrame untidyWrite = .ok (header, ext, [10, 11]) ∧
      encodeFrame header ext [10, 11] = canonical untidyWrite := by
  have hok : decodeFrame untidyWrite = .ok
      (⟨magic, version, .data, FrameFlags.ackReq, 1, 2, 0, 7, 2, 0⟩,
        some ⟨.write, ExtFlags.empty, 5, 1, 2, 9, 0, 0, 1, ⟨64⟩, none⟩, [10, 11]) := by
    decide
  exact ⟨_, _, hok, (decode_frame_total_and_canonical untidyWrite).2.2 _ _ _ hok⟩

example : canonical untidyWrite ≠ untidyWrite := by
  decide

end UniBus.Wire
