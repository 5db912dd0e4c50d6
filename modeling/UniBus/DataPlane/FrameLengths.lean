import UniBus.DataPlane.Engine
import UniBus.Transport.Patching

/-!
# The payload length in a frame header

The encoder copies the field `payload_len` from the header it is given, and the decoder
does not look at it. Whether the field tells the truth is up to the builders: those of
DATA frames fill it in, those of ACK and CREDIT frames leave it to the encoder.
-/
namespace UniBus.DataPlane

open Wire Transport
open BigEndian (put)

/-- The frame decodes, and its header states the length of the payload. -/
def Truthful (b : List UInt8) : Prop :=
  ∃ header ext payload, decodeFrame b = .ok (header, ext, payload) ∧
    header.payloadLen.toNat = payload.length

/-- A frame that the program emits, by its builder. -/
inductive EmittedFrame
  | data (srcNode dstNode : UInt16) (verb : Verb) (mrHandle : UInt32) (ubAddr : UbAddr)
      (opaqueId : UInt64) (payload : List UInt8) (extFlags : ExtFlags)
  | dataEx (srcNode dstNode : UInt16) (verb : Verb) (mrHandle : UInt32) (ubAddr : UbAddr)
      (opaqueId : UInt64) (jettySrc jettyDst : UInt32) (imm : Option UInt64)
      (payload : List UInt8)
  | ack (localNode remoteNode : UInt16) (payload : AckPayload)
  | credit (localNode remoteNode : UInt16) (credits : UInt32)

namespace EmittedFrame

def bytes : EmittedFrame → List UInt8
  | data src dst verb handle addr opaqueId payload extFlags =>
    buildDataFrameWithFlags src dst verb handle addr opaqueId payload extFlags
  | dataEx src dst verb handle addr opaqueId jettySrc jettyDst imm payload =>
    buildDataFrameEx src dst verb handle addr opaqueId jettySrc jettyDst imm payload
  | ack localNode remoteNode payload => buildAckFrame localNode remoteNode payload
  | credit localNode remoteNode credits => buildCreditFrame localNode remoteNode credits

/-- A DATA frame whose payload has a length that fits the field. The builder without an
immediate is not to announce one. -/
def Measured : EmittedFrame → Prop
  | data _ _ _ _ _ _ payload extFlags =>
    payload.length < 2 ^ 32 ∧ extFlags.contains .hasImm = false
  | dataEx _ _ _ _ _ _ _ _ _ payload => payload.length < 2 ^ 32
  | ack _ _ _ => False
  | credit _ _ _ => False

end EmittedFrame

theorem truthful_iff_of_decode {b payload : List UInt8} {header : FrameHeader}
    {ext : Option DataExtHeader} (h : decodeFrame b = .ok (header, ext, payload)) :
    Truthful b ↔ header.payloadLen.toNat = payload.length := by
  constructor
  · rintro ⟨header', ext', payload', hok, hlen⟩
    cases h.symm.trans hok
    exact hlen
  · intro hlen
    exact ⟨header, ext, payload, h, hlen⟩

/-! ## Frames with a spelled header -/

theorem truthful_numbered_iff (r : RawHeader) (rest : List UInt8) (seq : ℕ) :
    Truthful ((r.numbered seq).bytes ++ rest) ↔ Truthful (r.bytes ++ rest) := by
  unfold Truthful
  simp only [decodeFrame_bytes_ok_iff]
  constructor
  · rintro ⟨header, ext, payload, ⟨hmagic, hversion, t, ht, rfl, hrest⟩, hlen⟩
    exact ⟨_, ext, payload, ⟨hmagic, hversion, t, ht, rfl, hrest⟩, hlen⟩
  · rintro ⟨header, ext, payload, ⟨hmagic, hversion, t, ht, rfl, hrest⟩, hlen⟩
    exact ⟨_, ext, payload, ⟨hmagic, hversion, t, ht, rfl, hrest⟩, hlen⟩

theorem truthful_assignSeq_iff (s : ReliableSession) {b : List UInt8} (hb : 32 ≤ b.length)
    (now : Instant) (isFireAndForget : Bool) (opaqueId : UInt64) :
    Truthful (s.assignSeq now b isFireAndForget opaqueId).2.1 ↔ Truthful b := by
  obtain ⟨r, rest, rfl⟩ := exists_rawHeader hb
  rw [← truthful_numbered_iff r rest s.nextSeq, ← r.patch_bytes]
  rfl

theorem truthful_data_iff (r : RawHeader) (x : RawExt) (rest : List UInt8) {verb : Verb}
    (hmagic : r.magic = magic) (hversion : r.version = version)
    (htype : FrameType.fromU8 r.frameType = some .data) (hverb : Verb.fromU8 x.verb = some verb) :
    Truthful (r.bytes ++ (x.bytes ++ rest)) ↔
      (x.hasImm = true → 8 ≤ rest.length) ∧
        r.payloadLen.toNat = rest.length - if x.hasImm then 8 else 0 := by
  have hdrop : (x.bytes ++ rest).drop (x.ext verb rest).size =
      rest.drop (if x.hasImm then 8 else 0) := by
    rw [x.size_ext, ← List.drop_drop, List.drop_left' x.length_bytes]
  have hlength : (rest.drop (if x.hasImm then 8 else 0)).length =
      rest.length - if x.hasImm then 8 else 0 := List.length_drop
  constructor
  · rintro ⟨header, ext, payload, hok, hlen⟩
    obtain ⟨-, -, t, ht, rfl, hrest⟩ := (decodeFrame_bytes_ok_iff _ _ _ _ _).mp hok
    obtain rfl : t = .data := Option.some.inj (ht.symm.trans htype)
    rcases hrest with ⟨hne, -⟩ | ⟨-, e, he, -, rfl⟩
    · exact absurd rfl hne
    · obtain ⟨v, hv, himm, rfl⟩ := (decodeDataExtHeader_bytes_ok_iff x rest e).mp he
      obtain rfl : v = verb := Option.some.inj (hv.symm.trans hverb)
      rw [hdrop, hlength] at hlen
      exact ⟨himm, hlen⟩
  · rintro ⟨himm, hlen⟩
    have he := (decodeDataExtHeader_bytes_ok_iff x rest _).mpr ⟨verb, hverb, himm, rfl⟩
    refine ⟨_, _, _, (decodeFrame_bytes_ok_iff _ _ _ _ _).mpr
      ⟨hmagic, hversion, .data, htype, rfl, Or.inr ⟨rfl, _, he, rfl, rfl⟩⟩, ?_⟩
    rw [hdrop, hlength]
    exact hlen

theorem toNat_ofNat_length_iff (payload : List UInt8) :
    (UInt32.ofNat payload.length).toNat = payload.length ↔ payload.length < 2 ^ 32 := by
  rw [UInt32.toNat_ofNat']
  constructor
  · intro h
    rw [← h]
    exact Nat.mod_lt _ (by decide)
  · exact Nat.mod_eq_of_lt

/-! ## The builders -/

section
variable (src dst : UInt16) (verb : Verb) (handle : UInt32) (addr : UbAddr) (opaqueId : UInt64)

theorem truthful_data_frame_iff (payload : List UInt8) (extFlags : ExtFlags) :
    Truthful (buildDataFrameWithFlags src dst verb handle addr opaqueId payload extFlags) ↔
      payload.length < 2 ^ 32 ∧ extFlags.contains .hasImm = false := by
  have hbytes : buildDataFrameWithFlags src dst verb handle addr opaqueId payload extFlags =
      RawHeader.bytes ⟨magic, version, FrameType.data.toU8, 0, src, dst, 0, 0,
        UInt32.ofNat payload.length, 0⟩ ++ (RawExt.bytes ⟨verb.toU8, extFlags.bits, 0, handle, 0,
          0, opaqueId, 0, 0, 1, addr⟩ ++ payload) := by
    simp [buildDataFrameWithFlags, encodeFrame, encodeHeader, encodeDataExtHeader,
      RawHeader.bytes, RawExt.bytes, FrameFlags.empty]
  have himm : RawExt.hasImm ⟨verb.toU8, extFlags.bits, 0, handle, 0, 0, opaqueId, 0, 0, 1, addr⟩ =
      extFlags.contains .hasImm := rfl
  rw [hbytes, truthful_data_iff _ _ _ rfl rfl (FrameType.fromU8_toU8 .data)
    (Verb.fromU8_toU8 verb), himm]
  cases extFlags.contains .hasImm with
  | false => simp [-UInt32.toNat_ofNat', toNat_ofNat_length_iff]
  | true =>
    -- eight bytes are missing from the payload, but a length is only wrong by `2^32`
    have hmod : (UInt32.ofNat payload.length).toNat = payload.length % 2 ^ 32 :=
      UInt32.toNat_ofNat'
    simp only [forall_const, if_true, Bool.true_eq_false, and_false, iff_false, not_and, hmod]
    omega

theorem truthful_data_frame_ex_iff (jettySrc jettyDst : UInt32) (imm : Option UInt64)
    (payload : List UInt8) :
    Truthful (buildDataFrameEx src dst verb handle addr opaqueId jettySrc jettyDst imm payload) ↔
      payload.length < 2 ^ 32 := by
  have hflags : ∀ b : Bool,
      (if b then FrameFlags.empty.union .hasImm else FrameFlags.empty).Known ∧
      (if b then ExtFlags.empty.union .hasImm else ExtFlags.empty).Known ∧
      b = (if b then ExtFlags.empty.union .hasImm else ExtFlags.empty).contains .hasImm := by
    decide
  obtain ⟨hframe, hknown, himm⟩ := hflags imm.isSome
  rw [← toNat_ofNat_length_iff, buildDataFrameEx]
  exact truthful_iff_of_decode
    (decodeFrame_encode_data ⟨rfl, rfl, hframe⟩ rfl ⟨hknown, himm⟩ payload)

end

theorem not_truthful_ack_frame (localNode remoteNode : UInt16) (ack : AckPayload) :
    ¬ Truthful (buildAckFrame localNode remoteNode ack) := by
  obtain ⟨header, hdecode, -, hlen, -⟩ := decodeFrame_buildAckFrame localNode remoteNode ack
  have hpayload : 16 ≤ (encodeAckPayload ack).length := by
    simp only [encodeAckPayload, List.length_append, BigEndian.length_put]
    omega
  rw [truthful_iff_of_decode hdecode, hlen]
  intro hzero
  rw [← hzero] at hpayload
  simp at hpayload

theorem not_truthful_credit_frame (localNode remoteNode : UInt16) (credits : UInt32) :
    ¬ Truthful (buildCreditFrame localNode remoteNode credits) := by
  obtain ⟨header, hdecode, -, hlen⟩ := decodeFrame_buildCreditFrame localNode remoteNode credits
  rw [truthful_iff_of_decode hdecode, hlen]
  simp [encodeCreditPayload]

theorem EmittedFrame.truthful_bytes_iff (f : EmittedFrame) : Truthful f.bytes ↔ f.Measured := by
  cases f with
  | data => exact truthful_data_frame_iff _ _ _ _ _ _ _ _
  | dataEx => exact truthful_data_frame_ex_iff _ _ _ _ _ _ _ _ _ _
  | ack => exact iff_of_false (not_truthful_ack_frame _ _ _) id
  | credit => exact iff_of_false (not_truthful_credit_frame _ _ _) id

theorem EmittedFrame.length_bytes (f : EmittedFrame) : 32 ≤ f.bytes.length := by
  cases f <;> simp [bytes, buildDataFrameWithFlags, buildDataFrameEx, buildAckFrame,
    buildCreditFrame, encodeFrame, frameHeaderSize]

/-- A frame that the program emits states the length of its payload just in case it is a
DATA frame with a payload of fewer than `2^32` bytes, before and after it is numbered. -/
theorem payload_len_truthful_iff (f : EmittedFrame) :
    (Truthful f.bytes ↔ f.Measured) ∧
      ∀ (s : ReliableSession) (now : Instant) (isFireAndForget : Bool) (opaqueId : UInt64),
        Truthful (s.assignSeq now f.bytes isFireAndForget opaqueId).2.1 ↔ f.Measured := by
  refine ⟨f.truthful_bytes_iff, ?_⟩
  intro s now isFireAndForget opaqueId
  rw [truthful_assignSeq_iff s f.length_bytes]
  exact f.truthful_bytes_iff

/-- An acknowledgement of 16 bytes announces none. -/
theorem ack_frame_states_no_length :
    let frame := buildAckFrame 1 2 ⟨5, 1, 0, none⟩
    decodeFrame frame =
        .ok (⟨magic, version, .ack, FrameFlags.empty, 1, 2, 0, 0, 0, 0⟩, none,
          encodeAckPayload ⟨5, 1, 0, none⟩) ∧
      (encodeAckPayload ⟨5, 1, 0, none⟩).length = 16 ∧ ¬ Truthful frame := by
  intro frame
  have hdecode : decodeFrame frame =
      .ok (⟨magic, version, .ack, FrameFlags.empty, 1, 2, 0, 0, 0, 0⟩, none,
        encodeAckPayload ⟨5, 1, 0, none⟩) := by decide
  refine ⟨hdecode, by decide, ?_⟩
  rw [truthful_iff_of_decode hdecode]
  decide

end UniBus.DataPlane
