import UniBus.Control.Message

/-!
# Round trips of the control messages

Every payload codec reads exactly what its encoder wrote, whatever follows it, so
an encoded message decodes to itself.
-/
namespace UniBus.Control

open BigEndian (put)
open Cursor (Reads)
open Wire (readField readExact)

/-! ## Fields -/

theorem reads_int {α : Type} (width : ℕ) (ofNat : ℕ → α) {toNat : α → ℕ} (a : α)
    (h : ofNat (toNat a % 256 ^ width) = a) :
    Reads (readInt width ofNat) (put width (toNat a)) a := by
  intro rest
  simp [readInt, bind, Except.bind, pure, Except.pure, h]

theorem reads_u8 (v : UInt8) : Reads readU8 (put 1 v.toNat) v :=
  reads_int 1 UInt8.ofNat v (by simp)

theorem reads_u16 (v : UInt16) : Reads readU16 (put 2 v.toNat) v :=
  reads_int 2 UInt16.ofNat v (by simp)

theorem reads_u32 (v : UInt32) : Reads readU32 (put 4 v.toNat) v :=
  reads_int 4 UInt32.ofNat v (by simp)

theorem reads_u64 (v : UInt64) : Reads readU64 (put 8 v.toNat) v :=
  reads_int 8 UInt64.ofNat v (by simp)

theorem reads_u128 (v : BitVec 128) : Reads readU128 (put 16 v.toNat) v := by
  apply reads_int 16 (BitVec.ofNat 128) v
  rw [Nat.mod_eq_of_lt (by simpa using v.isLt)]
  simp

theorem reads_addr (a : UbAddr) : Reads readAddr a.toBytes a := by
  intro rest
  simp [readAddr, bind, Except.bind, pure, Except.pure]

theorem reads_len {n : ℕ} (h : n < 2 ^ 32) : Reads readU32 (put 4 n) (UInt32.ofNat n) := by
  have hlen := reads_u32 (UInt32.ofNat n)
  rwa [UInt32.toNat_ofNat_of_lt' h] at hlen

theorem reads_blob {bytes : List UInt8} (h : bytes.length < 2 ^ 32) :
    Reads readBlob (putBlob bytes) bytes := by
  apply (reads_len h).bind
  intro rest
  have htake : (bytes ++ rest).take bytes.length = bytes := List.take_left
  have hdrop : (bytes ++ rest).drop bytes.length = rest := List.drop_left
  rw [UInt32.toNat_ofNat_of_lt' h, readExact, if_neg (by simp), htake, hdrop]

theorem fromUTF8?_utf8 (s : String) : String.fromUTF8? (utf8 s).toByteArray = some s := by
  have hbytes : (utf8 s).toByteArray = s.toByteArray := by
    apply ByteArray.ext
    simp [utf8]
  rw [hbytes, String.fromUTF8?, dif_pos s.isValidUTF8]
  rfl

theorem reads_string (field : String) {s : String} (h : (utf8 s).length < 2 ^ 32) :
    Reads (readString field) (putString s) s := by
  rw [putString, ← List.append_nil (putBlob (utf8 s))]
  apply (reads_blob h).bind
  rw [fromUTF8?_utf8]
  exact Cursor.reads_pure s

theorem reads_enum {α : Type} {fromU8 : UInt8 → Option α} {v : UInt8} {a : α} (field : String)
    (h : fromU8 v = some a) : Reads (readEnum fromU8 field) (put 1 v.toNat) a := by
  rw [← List.append_nil (put 1 v.toNat)]
  apply (reads_u8 v).bind
  rw [h]
  exact Cursor.reads_pure a

/-! ## Payloads

A payload short enough for its frame has only strings and lists short enough for
their length fields. -/

theorem length_putString (s : String) : (putString s).length = 4 + (utf8 s).length := by
  simp [putString, putBlob]

theorem HelloPayload.reads {p : HelloPayload} (h : p.encode.length < 2 ^ 32) :
    Reads decode p.encode p := by
  have haddr : (utf8 p.dataAddr).length < 2 ^ 32 := by
    simp [encode, length_putString] at h
    omega
  exact (reads_u16 _).cons <| (reads_u16 _).cons <| (reads_u32 _).cons <| (reads_u32 _).cons <|
    (reads_string _ haddr).cons <| .nil p

theorem HeartbeatPayload.reads (p : HeartbeatPayload) : Reads decode p.encode p :=
  (reads_u16 _).cons <| (reads_u64 _).cons <| .nil p

theorem MrPublishPayload.reads {p : MrPublishPayload} (h : p.perms.Known) :
    Reads decode p.encode p := by
  have hread : Reads decode p.encode
      { p with perms := MrPerms.fromBitsTruncate p.perms.bits } :=
    (reads_u16 _).cons <| (reads_u32 _).cons <| (reads_addr _).cons <| (reads_u64 _).cons <|
      (reads_u8 _).cons <| (reads_enum _ p.deviceKind.fromU8_toU8).cons <| .nil _
  rw [h.fromBitsTruncate] at hread
  exact hread

theorem MrRevokePayload.reads (p : MrRevokePayload) : Reads decode p.encode p :=
  (reads_u16 _).cons <| (reads_u32 _).cons <| .nil p

theorem MemberDownPayload.reads (p : MemberDownPayload) : Reads decode p.encode p :=
  (reads_u16 _).cons <| (reads_u8 _).cons <| .nil p

theorem JoinPayload.reads {p : JoinPayload} (h : p.encode.length < 2 ^ 32) :
    Reads decode p.encode p := by
  have haddr : (utf8 p.dataAddr).length < 2 ^ 32 ∧ (utf8 p.controlAddr).length < 2 ^ 32 := by
    simp [encode, length_putString] at h
    omega
  exact (reads_u16 _).cons <| (reads_u32 _).cons <| (reads_string _ haddr.1).cons <|
    (reads_string _ haddr.2).cons <| (reads_u32 _).cons <| .nil p

theorem SnapshotNodeInfo.reads {node : SnapshotNodeInfo} (h : node.encode.length < 2 ^ 32) :
    Reads decode node.encode node := by
  have haddr : (utf8 node.dataAddr).length < 2 ^ 32 ∧
      (utf8 node.controlAddr).length < 2 ^ 32 := by
    simp [encode, length_putString] at h
    omega
  exact (reads_u16 _).cons <| (reads_u8 _).cons <| (reads_u32 _).cons <|
    (reads_string _ haddr.1).cons <| (reads_string _ haddr.2).cons <| .nil node

/-- The encodings of a list are at least as long as each of them and, if none is
empty, as the list. -/
theorem length_le_flatMap {α : Type} {write : α → List UInt8} {as : List α} {a : α}
    (ha : a ∈ as) : (write a).length ≤ (as.flatMap write).length := by
  induction as with
  | nil => cases ha
  | cons b as ih =>
    rw [List.flatMap_cons, List.length_append]
    rcases List.mem_cons.mp ha with rfl | ha
    · omega
    · have := ih ha
      omega

theorem length_list_le_flatMap {α : Type} {write : α → List UInt8} (as : List α)
    (h : ∀ a, 0 < (write a).length) : as.length ≤ (as.flatMap write).length := by
  induction as with
  | nil => exact le_rfl
  | cons a as ih =>
    have := h a
    rw [List.flatMap_cons, List.length_append, List.length_cons]
    omega

theorem reads_counted {α β : Type} {r : Reader α} {write : α → List UInt8} (f : List α → β)
    {as : List α} (hlen : (as.flatMap write).length < 2 ^ 32) (hpos : ∀ a, 0 < (write a).length)
    (hread : ∀ a, (write a).length < 2 ^ 32 → Reads r (write a) a) :
    Reads (do
      let count ← readU32
      let as ← Cursor.many r count.toNat
      return f as) [put 4 as.length, as.flatMap write].flatten (f as) := by
  have hcount : as.length < 2 ^ 32 := (length_list_le_flatMap as hpos).trans_lt hlen
  have hmany : Reads (Cursor.many r as.length) (as.flatMap write) as := by
    apply Reads.many
    intro a ha
    exact hread a ((length_le_flatMap ha).trans_lt hlen)
  refine (reads_len hcount).cons ?_
  rw [UInt32.toNat_ofNat_of_lt' hcount]
  exact hmany.cons (.nil (f as))

theorem MemberSnapshotPayload.reads {p : MemberSnapshotPayload} (h : p.encode.length < 2 ^ 32) :
    Reads decode p.encode p := by
  have hlen : (p.nodes.flatMap SnapshotNodeInfo.encode).length < 2 ^ 32 := by
    simp [encode] at h ⊢
    omega
  apply reads_counted MemberSnapshotPayload.mk hlen
  · intro node
    simp [SnapshotNodeInfo.encode]
  · exact fun node => SnapshotNodeInfo.reads

theorem DeviceProfileEntry.reads (e : DeviceProfileEntry) : Reads decode e.encode e :=
  (reads_u16 _).cons <| (reads_u16 _).cons <| (reads_enum _ e.kind.fromU8_toU8).cons <|
    (reads_enum _ e.tier.fromU8_toU8).cons <| (reads_u64 _).cons <| (reads_u32 _).cons <|
    (reads_u32 _).cons <| (reads_u32 _).cons <| (reads_u32 _).cons <| (reads_u64 _).cons <|
    (reads_u32 _).cons <| .nil e

theorem DeviceProfileEntry.reads_framed {e : DeviceProfileEntry}
    (h : (putBlob e.encode).length < 2 ^ 32) : Reads decodeFramed (putBlob e.encode) e := by
  have hlen : e.encode.length < 2 ^ 32 := by
    simp only [putBlob, List.length_append] at h
    omega
  rw [← List.append_nil (putBlob e.encode)]
  apply (reads_blob hlen).bind
  rw [e.reads.run]
  exact Cursor.reads_pure e

theorem DeviceProfilePublishPayload.reads {p : DeviceProfilePublishPayload}
    (h : p.encode.length < 2 ^ 32) : Reads decode p.encode p := by
  have hlen : (p.entries.flatMap fun entry => putBlob entry.encode).length < 2 ^ 32 := by
    simp [encode] at h ⊢
    omega
  apply reads_counted DeviceProfilePublishPayload.mk hlen
  · intro entry
    simp [putBlob]
  · exact fun entry => DeviceProfileEntry.reads_framed

theorem AllocReqPayload.reads (p : AllocReqPayload) : Reads decode p.encode p :=
  (reads_u64 _).cons <| (reads_u64 _).cons <| (reads_enum _ p.access.fromU8_toU8).cons <|
    (reads_enum _ p.latencyClass.fromU8_toU8).cons <|
    (reads_enum _ p.capacityClass.fromU8_toU8).cons <| (reads_u8 _).cons <|
    (reads_u32 _).cons <| (reads_u16 _).cons <| .nil p

theorem AllocRespPayload.reads (p : AllocRespPayload) : Reads decode p.encode p :=
  (reads_u64 _).cons <| (reads_u128 _).cons <| (reads_u16 _).cons <| (reads_u16 _).cons <|
    (reads_u32 _).cons <| (reads_u64 _).cons <| (reads_u32 _).cons <| .nil p

theorem RegionCreatePayload.reads (p : RegionCreatePayload) : Reads decode p.encode p :=
  (reads_u64 _).cons <| (reads_u64 _).cons <| (reads_enum _ p.deviceKind.fromU8_toU8).cons <|
    .nil p

theorem RegionCreateOkPayload.reads (p : RegionCreateOkPayload) : Reads decode p.encode p :=
  (reads_u64 _).cons <| (reads_u32 _).cons <| (reads_u64 _).cons <| (reads_u16 _).cons <| .nil p

theorem RegionDeletePayload.reads (p : RegionDeletePayload) : Reads decode p.encode p :=
  (reads_u64 _).cons <| .nil p

theorem FetchPayload.reads (p : FetchPayload) : Reads decode p.encode p :=
  (reads_u64 _).cons <| (reads_u64 _).cons <| (reads_u32 _).cons <| (reads_u16 _).cons <| .nil p

theorem FetchRespPayload.reads {p : FetchRespPayload} (h : p.encode.length < 2 ^ 32) :
    Reads decode p.encode p := by
  have hlen : p.payload.length < 2 ^ 32 := by
    simp [encode, putBlob] at h
    omega
  exact (reads_u64 _).cons <| (reads_u64 _).cons <| (reads_blob hlen).cons <|
    (reads_u32 _).cons <| .nil p

theorem WriteLockReqPayload.reads (p : WriteLockReqPayload) : Reads decode p.encode p :=
  (reads_u64 _).cons <| (reads_u16 _).cons <| .nil p

theorem WriteLockGrantedPayload.reads (p : WriteLockGrantedPayload) : Reads decode p.encode p :=
  (reads_u64 _).cons <| (reads_u64 _).cons <| (reads_u32 _).cons <| .nil p

theorem WriteUnlockPayload.reads (p : WriteUnlockPayload) : Reads decode p.encode p :=
  (reads_u64 _).cons <| (reads_u16 _).cons <| .nil p

theorem InvalidatePayload.reads (p : InvalidatePayload) : Reads decode p.encode p :=
  (reads_u64 _).cons <| (reads_u64 _).cons <| .nil p

theorem InvalidateAckPayload.reads (p : InvalidateAckPayload) : Reads decode p.encode p :=
  (reads_u64 _).cons <| .nil p

/-! ## Messages -/

/-- Permissions travel as a byte of which only the defined bits are read back. -/
def ControlMsg.PermsKnown : ControlMsg → Prop
  | mrPublish p => p.perms.Known
  | _ => True

instance (msg : ControlMsg) : Decidable msg.PermsKnown := by
  cases msg with
  | mrPublish p => exact inferInstanceAs (Decidable p.perms.Known)
  | _ => exact isTrue trivial

theorem ControlMsg.reads {msg : ControlMsg} (hperms : msg.PermsKnown)
    (hlen : msg.encodePayload.length < 2 ^ 32) :
    Reads (readerFor msg.msgType) msg.encodePayload msg := by
  cases msg with
  | hello p => exact (HelloPayload.reads hlen).map hello
  | helloAck p => exact (HelloPayload.reads hlen).map helloAck
  | memberUp p => exact (HelloPayload.reads hlen).map memberUp
  | memberDown p => exact p.reads.map memberDown
  | memberSnapshot p => exact (MemberSnapshotPayload.reads hlen).map memberSnapshot
  | heartbeat p => exact p.reads.map heartbeat
  | heartbeatAck p => exact p.reads.map heartbeatAck
  | mrPublish p => exact (MrPublishPayload.reads hperms).map mrPublish
  | mrRevoke p => exact p.reads.map mrRevoke
  | join p => exact (JoinPayload.reads hlen).map join
  | deviceProfilePublish p =>
    exact (DeviceProfilePublishPayload.reads hlen).map deviceProfilePublish
  | allocReq p => exact p.reads.map allocReq
  | allocResp p => exact p.reads.map allocResp
  | regionCreate p => exact p.reads.map regionCreate
  | regionCreateOk p => exact p.reads.map regionCreateOk
  | regionDelete p => exact p.reads.map regionDelete
  | fetch p => exact p.reads.map fetch
  | fetchResp p => exact (FetchRespPayload.reads hlen).map fetchResp
  | writeLockReq p => exact p.reads.map writeLockReq
  | writeLockGranted p => exact p.reads.map writeLockGranted
  | writeUnlock p => exact p.reads.map writeUnlock
  | invalidate p => exact p.reads.map invalidate
  | invalidateAck p => exact p.reads.map invalidateAck

theorem length_encodeCtrlMessage (msgType : CtrlMsgType) (payload : List UInt8) :
    (encodeCtrlMessage msgType payload).length = 5 + payload.length := by
  simp [encodeCtrlMessage, ← Nat.add_assoc]

theorem decodeCtrlMessage_encode (msgType : CtrlMsgType) {payload : List UInt8}
    (h : payload.length < 2 ^ 32) :
    decodeCtrlMessage (encodeCtrlMessage msgType payload) = .ok (msgType, payload) := by
  have hlen : ¬ (encodeCtrlMessage msgType payload).length < 5 := by
    rw [length_encodeCtrlMessage]
    omega
  have hmod : payload.length % 4294967296 = payload.length := Nat.mod_eq_of_lt h
  rw [decodeCtrlMessage, if_neg hlen, length_encodeCtrlMessage]
  simp only [encodeCtrlMessage, List.append_assoc]
  simp [bind, Except.bind, pure, Except.pure, hmod, msgType.fromU8_toU8]

theorem ControlMsg.decode_encode {msg : ControlMsg} (hperms : msg.PermsKnown)
    (hlen : msg.encodePayload.length < 2 ^ 32) : decode msg.encode = .ok msg := by
  rw [decode, encode, decodeCtrlMessage_encode msg.msgType hlen]
  simp only [bind, Except.bind, (ControlMsg.reads hperms hlen).run]
  rfl

end UniBus.Control
