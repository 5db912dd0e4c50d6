import UniBus.Foundations.Cursor
import UniBus.Managed.Registry
import UniBus.Wire.Codec

/-!
# Control-plane messages

The 23 kinds of control messages with their payloads and the framing
`length (4) ++ type (1) ++ payload`. An encoder writes its fields one after the
other; a decoder reads them from a cursor over the payload and ignores what is
left. The position that the library adds to the text of a UTF-8 error is left out.
-/
namespace UniBus.Control

open BigEndian (put)
open Wire (readField readExact)
open Managed (StorageTier LatencyClass)

inductive AccessPattern
  | readHeavy
  | writeHeavy
  | mixed
  deriving DecidableEq, Repr

namespace AccessPattern

def toU8 : AccessPattern → UInt8
  | readHeavy => 0
  | writeHeavy => 1
  | mixed => 2

def fromU8 (v : UInt8) : Option AccessPattern :=
  if v = 0 then some readHeavy
  else if v = 1 then some writeHeavy
  else if v = 2 then some mixed
  else none

theorem fromU8_toU8 (a : AccessPattern) : fromU8 a.toU8 = some a := by
  cases a <;> rfl

end AccessPattern

inductive CapacityClass
  | small
  | large
  | huge
  deriving DecidableEq, Repr

namespace CapacityClass

def toU8 : CapacityClass → UInt8
  | small => 0
  | large => 1
  | huge => 2

def fromU8 (v : UInt8) : Option CapacityClass :=
  if v = 0 then some small
  else if v = 1 then some large
  else if v = 2 then some huge
  else none

theorem fromU8_toU8 (c : CapacityClass) : fromU8 c.toU8 = some c := by
  cases c <;> rfl

end CapacityClass

/-! ## Fields -/

abbrev Reader (α : Type) := Cursor.Reader UbError α

def utf8 (s : String) : List UInt8 := s.toUTF8.data.toList

/-- Bytes after their length; the cast to 32 bits truncates. -/
def putBlob (bytes : List UInt8) : List UInt8 := put 4 bytes.length ++ bytes

def putString (s : String) : List UInt8 := putBlob (utf8 s)

/-- A field of `width` bytes, converted to its type. -/
def readInt {α : Type} (width : ℕ) (ofNat : ℕ → α) : Reader α := fun cursor => do
  let (v, cursor) ← readField width cursor
  return (ofNat v, cursor)

def readU8 : Reader UInt8 := readInt 1 UInt8.ofNat
def readU16 : Reader UInt16 := readInt 2 UInt16.ofNat
def readU32 : Reader UInt32 := readInt 4 UInt32.ofNat
def readU64 : Reader UInt64 := readInt 8 UInt64.ofNat
def readU128 : Reader (BitVec 128) := readInt 16 (BitVec.ofNat 128)

def readAddr : Reader UbAddr := fun cursor => do
  let (bytes, cursor) ← readExact 16 cursor
  return (UbAddr.fromBytes bytes, cursor)

def readBlob : Reader (List UInt8) := do
  let len ← readU32
  readExact len.toNat

def readString (field : String) : Reader String := do
  let bytes ← readBlob
  match String.fromUTF8? bytes.toByteArray with
  | some s => return s
  | none => throw (.internal ("invalid " ++ field))

/-- One byte that names a member of an enumeration. -/
def readEnum {α : Type} (fromU8 : UInt8 → Option α) (field : String) : Reader α := do
  let v ← readU8
  match fromU8 v with
  | some a => return a
  | none => throw (.internal ("invalid " ++ field ++ ": " ++ toString v))

/-! ## Payloads -/

structure HelloPayload where
  nodeId : UInt16
  version : UInt16
  localEpoch : UInt32
  initialCredits : UInt32
  dataAddr : String
  deriving DecidableEq, Repr

namespace HelloPayload

def encode (p : HelloPayload) : List UInt8 :=
  [put 2 p.nodeId.toNat, put 2 p.version.toNat, put 4 p.localEpoch.toNat,
    put 4 p.initialCredits.toNat, putString p.dataAddr].flatten

def decode : Reader HelloPayload := do
  let nodeId ← readU16
  let version ← readU16
  let localEpoch ← readU32
  let initialCredits ← readU32
  let dataAddr ← readString "data_addr"
  return { nodeId, version, localEpoch, initialCredits, dataAddr }

end HelloPayload

structure HeartbeatPayload where
  nodeId : UInt16
  timestamp : UInt64
  deriving DecidableEq, Repr

namespace HeartbeatPayload

def encode (p : HeartbeatPayload) : List UInt8 :=
  [put 2 p.nodeId.toNat, put 8 p.timestamp.toNat].flatten

def decode : Reader HeartbeatPayload := do
  let nodeId ← readU16
  let timestamp ← readU64
  return { nodeId, timestamp }

end HeartbeatPayload

structure MrPublishPayload where
  ownerNode : UInt16
  mrHandle : UInt32
  baseUbAddr : UbAddr
  len : UInt64
  perms : MrPerms
  deviceKind : DeviceKind
  deriving DecidableEq, Repr

namespace MrPublishPayload

def encode (p : MrPublishPayload) : List UInt8 :=
  [put 2 p.ownerNode.toNat, put 4 p.mrHandle.toNat, p.baseUbAddr.toBytes, put 8 p.len.toNat,
    put 1 p.perms.bits.toNat, put 1 p.deviceKind.toU8.toNat].flatten

def decode : Reader MrPublishPayload := do
  let ownerNode ← readU16
  let mrHandle ← readU32
  let baseUbAddr ← readAddr
  let len ← readU64
  let permsBits ← readU8
  let deviceKind ← readEnum DeviceKind.fromU8 "device_kind"
  return { ownerNode, mrHandle, baseUbAddr, len, deviceKind
           perms := MrPerms.fromBitsTruncate permsBits }

end MrPublishPayload

structure MrRevokePayload where
  ownerNode : UInt16
  mrHandle : UInt32
  deriving DecidableEq, Repr

namespace MrRevokePayload

def encode (p : MrRevokePayload) : List UInt8 :=
  [put 2 p.ownerNode.toNat, put 4 p.mrHandle.toNat].flatten

def decode : Reader MrRevokePayload := do
  let ownerNode ← readU16
  let mrHandle ← readU32
  return { ownerNode, mrHandle }

end MrRevokePayload

structure MemberDownPayload where
  nodeId : UInt16
  reason : UInt8
  deriving DecidableEq, Repr

namespace MemberDownPayload

def encode (p : MemberDownPayload) : List UInt8 :=
  [put 2 p.nodeId.toNat, put 1 p.reason.toNat].flatten

def decode : Reader MemberDownPayload := do
  let nodeId ← readU16
  let reason ← readU8
  return { nodeId, reason }

end MemberDownPayload

structure JoinPayload where
  nodeId : UInt16
  epoch : UInt32
  dataAddr : String
  controlAddr : String
  initialCredits : UInt32
  deriving DecidableEq, Repr

namespace JoinPayload

def encode (p : JoinPayload) : List UInt8 :=
  [put 2 p.nodeId.toNat, put 4 p.epoch.toNat, putString p.dataAddr, putString p.controlAddr,
    put 4 p.initialCredits.toNat].flatten

def decode : Reader JoinPayload := do
  let nodeId ← readU16
  let epoch ← readU32
  let dataAddr ← readString "data_addr"
  let controlAddr ← readString "control_addr"
  let initialCredits ← readU32
  return { nodeId, epoch, dataAddr, controlAddr, initialCredits }

end JoinPayload

structure SnapshotNodeInfo where
  nodeId : UInt16
  state : UInt8
  dataAddr : String
  controlAddr : String
  epoch : UInt32
  deriving DecidableEq, Repr

namespace SnapshotNodeInfo

def encode (node : SnapshotNodeInfo) : List UInt8 :=
  [put 2 node.nodeId.toNat, put 1 node.state.toNat, put 4 node.epoch.toNat,
    putString node.dataAddr, putString node.controlAddr].flatten

def decode : Reader SnapshotNodeInfo := do
  let nodeId ← readU16
  let state ← readU8
  let epoch ← readU32
  let dataAddr ← readString "data_addr"
  let controlAddr ← readString "control_addr"
  return { nodeId, state, dataAddr, controlAddr, epoch }

end SnapshotNodeInfo

structure MemberSnapshotPayload where
  nodes : List SnapshotNodeInfo
  deriving DecidableEq, Repr

namespace MemberSnapshotPayload

def encode (p : MemberSnapshotPayload) : List UInt8 :=
  [put 4 p.nodes.length, p.nodes.flatMap SnapshotNodeInfo.encode].flatten

def decode : Reader MemberSnapshotPayload := do
  let count ← readU32
  let nodes ← Cursor.many SnapshotNodeInfo.decode count.toNat
  return { nodes }

end MemberSnapshotPayload

structure DeviceProfileEntry where
  nodeId : UInt16
  deviceId : UInt16
  kind : DeviceKind
  tier : StorageTier
  capacityBytes : UInt64
  peakReadBwMbps : UInt32
  peakWriteBwMbps : UInt32
  readLatencyNsP50 : UInt32
  writeLatencyNsP50 : UInt32
  usedBytes : UInt64
  recentRps : UInt32
  deriving DecidableEq, Repr

namespace DeviceProfileEntry

def encode (e : DeviceProfileEntry) : List UInt8 :=
  [put 2 e.nodeId.toNat, put 2 e.deviceId.toNat, put 1 e.kind.toU8.toNat, put 1 e.tier.toU8.toNat,
    put 8 e.capacityBytes.toNat, put 4 e.peakReadBwMbps.toNat, put 4 e.peakWriteBwMbps.toNat,
    put 4 e.readLatencyNsP50.toNat, put 4 e.writeLatencyNsP50.toNat, put 8 e.usedBytes.toNat,
    put 4 e.recentRps.toNat].flatten

def decode : Reader DeviceProfileEntry := do
  let nodeId ← readU16
  let deviceId ← readU16
  let kind ← readEnum DeviceKind.fromU8 "device_kind"
  let tier ← readEnum StorageTier.fromU8 "storage_tier"
  let capacityBytes ← readU64
  let peakReadBwMbps ← readU32
  let peakWriteBwMbps ← readU32
  let readLatencyNsP50 ← readU32
  let writeLatencyNsP50 ← readU32
  let usedBytes ← readU64
  let recentRps ← readU32
  return { nodeId, deviceId, kind, tier, capacityBytes, peakReadBwMbps, peakWriteBwMbps,
           readLatencyNsP50, writeLatencyNsP50, usedBytes, recentRps }

/-- An entry in its own buffer after its length. -/
def decodeFramed : Reader DeviceProfileEntry := do
  let entryBuf ← readBlob
  match decode entryBuf with
  | .ok (entry, _) => return entry
  | .error e => throw e

end DeviceProfileEntry

structure DeviceProfilePublishPayload where
  entries : List DeviceProfileEntry
  deriving DecidableEq, Repr

namespace DeviceProfilePublishPayload

def encode (p : DeviceProfilePublishPayload) : List UInt8 :=
  [put 4 p.entries.length, p.entries.flatMap fun entry => putBlob entry.encode].flatten

def decode : Reader DeviceProfilePublishPayload := do
  let count ← readU32
  let entries ← Cursor.many DeviceProfileEntry.decodeFramed count.toNat
  return { entries }

end DeviceProfilePublishPayload

/-- `pinKind` is 0 for no device, 1 for memory, 2 for an NPU. -/
structure AllocReqPayload where
  regionId : UInt64
  size : UInt64
  access : AccessPattern
  latencyClass : LatencyClass
  capacityClass : CapacityClass
  pinKind : UInt8
  expectedReaders : UInt32
  requesterNodeId : UInt16
  deriving DecidableEq, Repr

namespace AllocReqPayload

def encode (p : AllocReqPayload) : List UInt8 :=
  [put 8 p.regionId.toNat, put 8 p.size.toNat, put 1 p.access.toU8.toNat,
    put 1 p.latencyClass.toU8.toNat, put 1 p.capacityClass.toU8.toNat, put 1 p.pinKind.toNat,
    put 4 p.expectedReaders.toNat, put 2 p.requesterNodeId.toNat].flatten

def decode : Reader AllocReqPayload := do
  let regionId ← readU64
  let size ← readU64
  let access ← readEnum AccessPattern.fromU8 "access_pattern"
  let latencyClass ← readEnum LatencyClass.fromU8 "latency_class"
  let capacityClass ← readEnum CapacityClass.fromU8 "capacity_class"
  let pinKind ← readU8
  let expectedReaders ← readU32
  let requesterNodeId ← readU16
  return { regionId, size, access, latencyClass, capacityClass, pinKind, expectedReaders,
           requesterNodeId }

end AllocReqPayload

structure AllocRespPayload where
  regionId : UInt64
  ubVa : BitVec 128
  homeNodeId : UInt16
  deviceId : UInt16
  mrHandle : UInt32
  baseOffset : UInt64
  errorCode : UInt32
  deriving DecidableEq, Repr

namespace AllocRespPayload

def encode (p : AllocRespPayload) : List UInt8 :=
  [put 8 p.regionId.toNat, put 16 p.ubVa.toNat, put 2 p.homeNodeId.toNat, put 2 p.deviceId.toNat,
    put 4 p.mrHandle.toNat, put 8 p.baseOffset.toNat, put 4 p.errorCode.toNat].flatten

def decode : Reader AllocRespPayload := do
  let regionId ← readU64
  let ubVa ← readU128
  let homeNodeId ← readU16
  let deviceId ← readU16
  let mrHandle ← readU32
  let baseOffset ← readU64
  let errorCode ← readU32
  return { regionId, ubVa, homeNodeId, deviceId, mrHandle, baseOffset, errorCode }

end AllocRespPayload

structure RegionCreatePayload where
  regionId : UInt64
  size : UInt64
  deviceKind : DeviceKind
  deriving DecidableEq, Repr

namespace RegionCreatePayload

def encode (p : RegionCreatePayload) : List UInt8 :=
  [put 8 p.regionId.toNat, put 8 p.size.toNat, put 1 p.deviceKind.toU8.toNat].flatten

def decode : Reader RegionCreatePayload := do
  let regionId ← readU64
  let size ← readU64
  let deviceKind ← readEnum DeviceKind.fromU8 "device_kind"
  return { regionId, size, deviceKind }

end RegionCreatePayload

structure RegionCreateOkPayload where
  regionId : UInt64
  mrHandle : UInt32
  baseOffset : UInt64
  deviceId : UInt16
  deriving DecidableEq, Repr

namespace RegionCreateOkPayload

def encode (p : RegionCreateOkPayload) : List UInt8 :=
  [put 8 p.regionId.toNat, put 4 p.mrHandle.toNat, put 8 p.baseOffset.toNat,
    put 2 p.deviceId.toNat].flatten

def decode : Reader RegionCreateOkPayload := do
  let regionId ← readU64
  let mrHandle ← readU32
  let baseOffset ← readU64
  let deviceId ← readU16
  return { regionId, mrHandle, baseOffset, deviceId }

end RegionCreateOkPayload

structure RegionDeletePayload where
  regionId : UInt64
  deriving DecidableEq, Repr

namespace RegionDeletePayload

def encode (p : RegionDeletePayload) : List UInt8 := [put 8 p.regionId.toNat].flatten

def decode : Reader RegionDeletePayload := do
  let regionId ← readU64
  return { regionId }

end RegionDeletePayload

structure FetchPayload where
  regionId : UInt64
  offset : UInt64
  len : UInt32
  requesterNodeId : UInt16
  deriving DecidableEq, Repr

namespace FetchPayload

def encode (p : FetchPayload) : List UInt8 :=
  [put 8 p.regionId.toNat, put 8 p.offset.toNat, put 4 p.len.toNat,
    put 2 p.requesterNodeId.toNat].flatten

def decode : Reader FetchPayload := do
  let regionId ← readU64
  let offset ← readU64
  let len ← readU32
  let requesterNodeId ← readU16
  return { regionId, offset, len, requesterNodeId }

end FetchPayload

structure FetchRespPayload where
  regionId : UInt64
  epoch : UInt64
  payload : List UInt8
  errorCode : UInt32
  deriving DecidableEq, Repr

namespace FetchRespPayload

def encode (p : FetchRespPayload) : List UInt8 :=
  [put 8 p.regionId.toNat, put 8 p.epoch.toNat, putBlob p.payload, put 4 p.errorCode.toNat].flatten

def decode : Reader FetchRespPayload := do
  let regionId ← readU64
  let epoch ← readU64
  let payload ← readBlob
  let errorCode ← readU32
  return { regionId, epoch, payload, errorCode }

end FetchRespPayload

structure WriteLockReqPayload where
  regionId : UInt64
  writerNodeId : UInt16
  deriving DecidableEq, Repr

namespace WriteLockReqPayload

def encode (p : WriteLockReqPayload) : List UInt8 :=
  [put 8 p.regionId.toNat, put 2 p.writerNodeId.toNat].flatten

def decode : Reader WriteLockReqPayload := do
  let regionId ← readU64
  let writerNodeId ← readU16
  return { regionId, writerNodeId }

end WriteLockReqPayload

structure WriteLockGrantedPayload where
  regionId : UInt64
  epoch : UInt64
  errorCode : UInt32
  deriving DecidableEq, Repr

namespace WriteLockGrantedPayload

def encode (p : WriteLockGrantedPayload) : List UInt8 :=
  [put 8 p.regionId.toNat, put 8 p.epoch.toNat, put 4 p.errorCode.toNat].flatten

def decode : Reader WriteLockGrantedPayload := do
  let regionId ← readU64
  let epoch ← readU64
  let errorCode ← readU32
  return { regionId, epoch, errorCode }

end WriteLockGrantedPayload

structure WriteUnlockPayload where
  regionId : UInt64
  writerNodeId : UInt16
  deriving DecidableEq, Repr

namespace WriteUnlockPayload

def encode (p : WriteUnlockPayload) : List UInt8 :=
  [put 8 p.regionId.toNat, put 2 p.writerNodeId.toNat].flatten

def decode : Reader WriteUnlockPayload := do
  let regionId ← readU64
  let writerNodeId ← readU16
  return { regionId, writerNodeId }

end WriteUnlockPayload

structure InvalidatePayload where
  regionId : UInt64
  newEpoch : UInt64
  deriving DecidableEq, Repr

namespace InvalidatePayload

def encode (p : InvalidatePayload) : List UInt8 :=
  [put 8 p.regionId.toNat, put 8 p.newEpoch.toNat].flatten

def decode : Reader InvalidatePayload := do
  let regionId ← readU64
  let newEpoch ← readU64
  return { regionId, newEpoch }

end InvalidatePayload

structure InvalidateAckPayload where
  regionId : UInt64
  deriving DecidableEq, Repr

namespace InvalidateAckPayload

def encode (p : InvalidateAckPayload) : List UInt8 := [put 8 p.regionId.toNat].flatten

def decode : Reader InvalidateAckPayload := do
  let regionId ← readU64
  return { regionId }

end InvalidateAckPayload

/-! ## Messages and their framing -/

inductive CtrlMsgType
  | hello
  | helloAck
  | memberUp
  | memberDown
  | memberSnapshot
  | mrPublish
  | mrRevoke
  | heartbeat
  | heartbeatAck
  | join
  | deviceProfilePublish
  | allocReq
  | allocResp
  | regionCreate
  | regionCreateOk
  | regionDelete
  | fetch
  | fetchResp
  | writeLockReq
  | writeLockGranted
  | writeUnlock
  | invalidate
  | invalidateAck
  deriving DecidableEq, Repr

namespace CtrlMsgType

def toU8 : CtrlMsgType → UInt8
  | hello => 0x01
  | helloAck => 0x02
  | memberUp => 0x03
  | memberDown => 0x04
  | memberSnapshot => 0x05
  | mrPublish => 0x06
  | mrRevoke => 0x07
  | heartbeat => 0x08
  | heartbeatAck => 0x09
  | join => 0x10
  | deviceProfilePublish => 0x11
  | allocReq => 0x12
  | allocResp => 0x13
  | regionCreate => 0x14
  | regionCreateOk => 0x15
  | regionDelete => 0x16
  | fetch => 0x17
  | fetchResp => 0x18
  | writeLockReq => 0x19
  | writeLockGranted => 0x1A
  | writeUnlock => 0x1B
  | invalidate => 0x1C
  | invalidateAck => 0x1D

def fromU8 (v : UInt8) : Option CtrlMsgType :=
  match v.toNat with
  | 0x01 => some hello
  | 0x02 => some helloAck
  | 0x03 => some memberUp
  | 0x04 => some memberDown
  | 0x05 => some memberSnapshot
  | 0x06 => some mrPublish
  | 0x07 => some mrRevoke
  | 0x08 => some heartbeat
  | 0x09 => some heartbeatAck
  | 0x10 => some join
  | 0x11 => some deviceProfilePublish
  | 0x12 => some allocReq
  | 0x13 => some allocResp
  | 0x14 => some regionCreate
  | 0x15 => some regionCreateOk
  | 0x16 => some regionDelete
  | 0x17 => some fetch
  | 0x18 => some fetchResp
  | 0x19 => some writeLockReq
  | 0x1A => some writeLockGranted
  | 0x1B => some writeUnlock
  | 0x1C => some invalidate
  | 0x1D => some invalidateAck
  | _ => none

theorem fromU8_toU8 (t : CtrlMsgType) : fromU8 t.toU8 = some t := by
  cases t <;> rfl

end CtrlMsgType

inductive ControlMsg
  | hello (p : HelloPayload)
  | helloAck (p : HelloPayload)
  | memberUp (p : HelloPayload)
  | memberDown (p : MemberDownPayload)
  | memberSnapshot (p : MemberSnapshotPayload)
  | heartbeat (p : HeartbeatPayload)
  | heartbeatAck (p : HeartbeatPayload)
  | mrPublish (p : MrPublishPayload)
  | mrRevoke (p : MrRevokePayload)
  | join (p : JoinPayload)
  | deviceProfilePublish (p : DeviceProfilePublishPayload)
  | allocReq (p : AllocReqPayload)
  | allocResp (p : AllocRespPayload)
  | regionCreate (p : RegionCreatePayload)
  | regionCreateOk (p : RegionCreateOkPayload)
  | regionDelete (p : RegionDeletePayload)
  | fetch (p : FetchPayload)
  | fetchResp (p : FetchRespPayload)
  | writeLockReq (p : WriteLockReqPayload)
  | writeLockGranted (p : WriteLockGrantedPayload)
  | writeUnlock (p : WriteUnlockPayload)
  | invalidate (p : InvalidatePayload)
  | invalidateAck (p : InvalidateAckPayload)
  deriving DecidableEq, Repr

def encodeCtrlMessage (msgType : CtrlMsgType) (payload : List UInt8) : List UInt8 :=
  put 4 payload.length ++ put 1 msgType.toU8.toNat ++ payload

def decodeCtrlMessage (buf : List UInt8) : Except UbError (CtrlMsgType × List UInt8) := do
  if buf.length < 5 then
    throw (.internal "control message too short")
  let (len, cur) ← readField 4 buf
  let (msgTypeU8, cur) ← readField 1 cur
  match CtrlMsgType.fromU8 (UInt8.ofNat msgTypeU8) with
  | none => throw (.internal ("unknown ctrl msg type: " ++ toString msgTypeU8))
  | some msgType =>
    if buf.length < 5 + len then
      throw (.internal "control message truncated")
    return (msgType, cur.take len)

namespace ControlMsg

def msgType : ControlMsg → CtrlMsgType
  | hello _ => .hello
  | helloAck _ => .helloAck
  | memberUp _ => .memberUp
  | memberDown _ => .memberDown
  | memberSnapshot _ => .memberSnapshot
  | heartbeat _ => .heartbeat
  | heartbeatAck _ => .heartbeatAck
  | mrPublish _ => .mrPublish
  | mrRevoke _ => .mrRevoke
  | join _ => .join
  | deviceProfilePublish _ => .deviceProfilePublish
  | allocReq _ => .allocReq
  | allocResp _ => .allocResp
  | regionCreate _ => .regionCreate
  | regionCreateOk _ => .regionCreateOk
  | regionDelete _ => .regionDelete
  | fetch _ => .fetch
  | fetchResp _ => .fetchResp
  | writeLockReq _ => .writeLockReq
  | writeLockGranted _ => .writeLockGranted
  | writeUnlock _ => .writeUnlock
  | invalidate _ => .invalidate
  | invalidateAck _ => .invalidateAck

def encodePayload : ControlMsg → List UInt8
  | hello p => p.encode
  | helloAck p => p.encode
  | memberUp p => p.encode
  | memberDown p => p.encode
  | memberSnapshot p => p.encode
  | heartbeat p => p.encode
  | heartbeatAck p => p.encode
  | mrPublish p => p.encode
  | mrRevoke p => p.encode
  | join p => p.encode
  | deviceProfilePublish p => p.encode
  | allocReq p => p.encode
  | allocResp p => p.encode
  | regionCreate p => p.encode
  | regionCreateOk p => p.encode
  | regionDelete p => p.encode
  | fetch p => p.encode
  | fetchResp p => p.encode
  | writeLockReq p => p.encode
  | writeLockGranted p => p.encode
  | writeUnlock p => p.encode
  | invalidate p => p.encode
  | invalidateAck p => p.encode

def encode (msg : ControlMsg) : List UInt8 := encodeCtrlMessage msg.msgType msg.encodePayload

/-- The reader for the payload of each type. -/
def readerFor : CtrlMsgType → Reader ControlMsg
  | .hello => hello <$> HelloPayload.decode
  | .helloAck => helloAck <$> HelloPayload.decode
  | .memberUp => memberUp <$> HelloPayload.decode
  | .memberDown => memberDown <$> MemberDownPayload.decode
  | .memberSnapshot => memberSnapshot <$> MemberSnapshotPayload.decode
  | .heartbeat => heartbeat <$> HeartbeatPayload.decode
  | .heartbeatAck => heartbeatAck <$> HeartbeatPayload.decode
  | .mrPublish => mrPublish <$> MrPublishPayload.decode
  | .mrRevoke => mrRevoke <$> MrRevokePayload.decode
  | .join => join <$> JoinPayload.decode
  | .deviceProfilePublish => deviceProfilePublish <$> DeviceProfilePublishPayload.decode
  | .allocReq => allocReq <$> AllocReqPayload.decode
  | .allocResp => allocResp <$> AllocRespPayload.decode
  | .regionCreate => regionCreate <$> RegionCreatePayload.decode
  | .regionCreateOk => regionCreateOk <$> RegionCreateOkPayload.decode
  | .regionDelete => regionDelete <$> RegionDeletePayload.decode
  | .fetch => fetch <$> FetchPayload.decode
  | .fetchResp => fetchResp <$> FetchRespPayload.decode
  | .writeLockReq => writeLockReq <$> WriteLockReqPayload.decode
  | .writeLockGranted => writeLockGranted <$> WriteLockGrantedPayload.decode
  | .writeUnlock => writeUnlock <$> WriteUnlockPayload.decode
  | .invalidate => invalidate <$> InvalidatePayload.decode
  | .invalidateAck => invalidateAck <$> InvalidateAckPayload.decode

def decode (buf : List UInt8) : Except UbError ControlMsg := do
  let (msgType, payload) ← decodeCtrlMessage buf
  let (msg, _) ← readerFor msgType payload
  return msg

end ControlMsg
end UniBus.Control
