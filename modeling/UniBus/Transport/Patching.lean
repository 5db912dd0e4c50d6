import UniBus.Transport.Session
import UniBus.Wire.Canonical

/-!
# Numbering an encoded frame in place

`assign_seq` writes the sequence number and the ACK_REQ bit into the bytes of a frame that
is already encoded, at positions it knows from the layout of the header. The decoder sees
the same frame with these two fields changed.
-/
namespace UniBus.Wire.RawHeader

open Transport

variable (r : RawHeader) (rest : List UInt8)

def numbered (seq : ℕ) : RawHeader :=
  { r with streamSeq := UInt64.ofNat seq, flags := r.flags ||| FrameFlags.ackReq.bits }

theorem patchSeq_bytes (seq : ℕ) :
    ReliableSession.patchSeq (r.bytes ++ rest) seq =
      { r with streamSeq := UInt64.ofNat seq }.bytes ++ rest := by
  have hlen : (r.bytes ++ rest).length ≥ 24 := by
    rw [List.length_append, length_bytes]
    omega
  have hput : BigEndian.put 8 seq = BigEndian.put 8 (UInt64.ofNat seq).toNat := by
    apply BigEndian.put_congr
    rw [UInt64.toNat_ofNat', Nat.mod_mod_of_dvd _ (by decide)]
  rw [ReliableSession.patchSeq, if_pos hlen, hput, splice_streamSeq]

theorem patchAckReq_bytes :
    ReliableSession.patchAckReq (r.bytes ++ rest) =
      { r with flags := r.flags ||| FrameFlags.ackReq.bits }.bytes ++ rest := by
  have hlen : (r.bytes ++ rest).length ≥ 8 := by
    rw [List.length_append, length_bytes]
    omega
  rw [ReliableSession.patchAckReq, if_pos hlen]
  dsimp only
  rw [flags_at, splice_flags]

theorem patch_bytes (seq : ℕ) :
    ReliableSession.patchAckReq (ReliableSession.patchSeq (r.bytes ++ rest) seq) =
      (r.numbered seq).bytes ++ rest := by
  rw [patchSeq_bytes, patchAckReq_bytes]
  rfl

theorem header_numbered (seq : ℕ) (t : FrameType) :
    (r.numbered seq).header t =
      { r.header t with
        streamSeq := UInt64.ofNat seq
        flags := (r.header t).flags.union FrameFlags.ackReq } := by
  have hknown : FrameFlags.ackReq.Known := by decide
  rw [numbered, header, hknown.fromBitsTruncate_or]
  rfl

end UniBus.Wire.RawHeader

namespace UniBus.Transport

open Wire

/-- Patching changes the number and the flags of a frame; its extension header and its
payload are the same bytes as before. -/
theorem decodeFrame_patch {b : List UInt8} {header : FrameHeader} {ext : Option DataExtHeader}
    {payload : List UInt8} (h : decodeFrame b = .ok (header, ext, payload)) (seq : ℕ) :
    decodeFrame (ReliableSession.patchAckReq (ReliableSession.patchSeq b seq)) =
      .ok ({ header with
          streamSeq := UInt64.ofNat seq
          flags := header.flags.union FrameFlags.ackReq }, ext, payload) := by
  rw [decodeFrame_iff_spelled] at h ⊢
  cases h with
  | plain r _ t hmagic hversion ht hplain =>
    rw [r.patch_bytes, ← r.header_numbered]
    exact .plain (r.numbered seq) _ t hmagic hversion ht hplain
  | data r x rest v hmagic hversion ht hv himm =>
    rw [r.patch_bytes, ← r.header_numbered]
    exact .data (r.numbered seq) x rest v hmagic hversion ht hv himm

namespace ReliableSession

/-- A frame that the decoder accepts is accepted after `assign_seq`, with the assigned
number, with ACK_REQ among its flags, and otherwise as it was. -/
theorem assign_seq_patches_header (s : ReliableSession) (hroom : s.nextSeq < 2 ^ 64)
    {b : List UInt8} {header : FrameHeader} {ext : Option DataExtHeader} {payload : List UInt8}
    (h : decodeFrame b = .ok (header, ext, payload)) (now : Instant) (isFireAndForget : Bool)
    (opaqueId : UInt64) :
    let assigned := s.assignSeq now b isFireAndForget opaqueId
    ∃ header', decodeFrame assigned.2.1 = .ok (header', ext, payload) ∧
      header'.streamSeq.toNat = assigned.2.2 ∧
      header' = { header with
        streamSeq := header'.streamSeq
        flags := header.flags.union FrameFlags.ackReq } := by
  refine ⟨_, decodeFrame_patch h s.nextSeq, ?_, rfl⟩
  exact UInt64.toNat_ofNat_of_lt' hroom

theorem assign_seq_patches_header_write :
    let s : ReliableSession := { ReliableSession.new 1 2 5 200 8 4 with nextSeq := 12 }
    ∃ header', decodeFrame (s.assignSeq 0 untidyWrite true 0).2.1 =
        .ok (header', some ⟨.write, ExtFlags.empty, 5, 1, 2, 9, 0, 0, 1, ⟨64⟩, none⟩, [10, 11]) ∧
      header'.streamSeq.toNat = 12 ∧
      header' = ⟨magic, version, .data, FrameFlags.ackReq, 1, 2, 0, header'.streamSeq, 2, 0⟩ := by
  have hok : decodeFrame untidyWrite = .ok
      (⟨magic, version, .data, FrameFlags.ackReq, 1, 2, 0, 7, 2, 0⟩,
        some ⟨.write, ExtFlags.empty, 5, 1, 2, 9, 0, 0, 1, ⟨64⟩, none⟩, [10, 11]) := by
    decide
  exact assign_seq_patches_header _ (by decide) hok 0 true 0

end ReliableSession
end UniBus.Transport
