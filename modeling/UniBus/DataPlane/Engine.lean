import UniBus.DataPlane.Handlers
import UniBus.Transport.Manager

/-!
# The data-plane engine

Dispatch of inbound frames to the verb handlers, responses, and the requests a
node sends itself. The value stored with a pending request stands for the
waiting end of its one-shot channel.
-/
namespace UniBus.DataPlane

open Wire Transport

structure VerbResponse where
  status : UbStatus
  data : List UInt8
  deriving DecidableEq, Repr

/-- A call that waits for its response: the peer asked and the verb sent. -/
structure PendingCall where
  peer : UInt16
  verb : Verb
  deriving DecidableEq, Repr

/-- A response sent to the call that waits under an identifier. -/
structure Completion where
  opaqueId : UInt64
  call : PendingCall
  response : VerbResponse
  deriving DecidableEq, Repr

structure DataPlaneEngine where
  localNodeId : UInt16
  host : Host
  mrCache : MrCacheTable
  transport : TransportManager
  pendingRequests : AList (fun _ : UInt64 => PendingCall)
  nextOpaque : UInt64

def buildDataFrameWithFlags (srcNode dstNode : UInt16) (verb : Verb) (mrHandle : UInt32)
    (ubAddr : UbAddr) (opaqueId : UInt64) (payload : List UInt8) (extFlags : ExtFlags) :
    List UInt8 :=
  encodeFrame
    { magic := magic, version := version, frameType := .data, flags := FrameFlags.empty
      srcNode, dstNode, reserved := 0, streamSeq := 0
      payloadLen := UInt32.ofNat payload.length, headerCrc := 0 }
    (some
      { verb, extFlags, mrHandle, jettySrc := 0, jettyDst := 0, opaqueId, fragId := 0
        fragIndex := 0, fragTotal := 1, ubAddr, imm := none })
    payload

def buildDataFrame (srcNode dstNode : UInt16) (verb : Verb) (mrHandle : UInt32)
    (ubAddr : UbAddr) (opaqueId : UInt64) (payload : List UInt8) : List UInt8 :=
  buildDataFrameWithFlags srcNode dstNode verb mrHandle ubAddr opaqueId payload ExtFlags.empty

/-- Extended frame builder with jettys and an immediate value, announced twice. -/
def buildDataFrameEx (srcNode dstNode : UInt16) (verb : Verb) (mrHandle : UInt32)
    (ubAddr : UbAddr) (opaqueId : UInt64) (jettySrc jettyDst : UInt32) (imm : Option UInt64)
    (payload : List UInt8) : List UInt8 :=
  let extFlags := if imm.isSome then ExtFlags.empty.union .hasImm else .empty
  let flags := if imm.isSome then FrameFlags.empty.union .hasImm else .empty
  encodeFrame
    { magic := magic, version := version, frameType := .data, flags, srcNode, dstNode
      reserved := 0, streamSeq := 0, payloadLen := UInt32.ofNat payload.length, headerCrc := 0 }
    (some
      { verb, extFlags, mrHandle, jettySrc, jettyDst, opaqueId, fragId := 0, fragIndex := 0
        fragTotal := 1, ubAddr, imm })
    payload

/-- The frame of `send_error_response`: it carries the verb of the request. -/
def errorResponse (localNodeId dstNode : UInt16) (reqExt : DataExtHeader) (status : UbStatus) :
    List UInt8 :=
  buildDataFrameWithFlags localNodeId dstNode reqExt.verb reqExt.mrHandle reqExt.ubAddr
    reqExt.opaqueId (BigEndian.put 4 status.toNat) ExtFlags.errResp

/-- What handling one inbound frame does besides changing the engine. -/
structure Dispatched where
  engine : DataPlaneEngine
  /-- The handler of a write verb ran and the frame was marked as executed. -/
  executed : Bool := false
  access : Option Access := none
  /-- A posted receive buffer was consumed. -/
  consumed : Bool := false
  completed : Option (PendingCall × VerbResponse) := none
  /-- The frames passed to `send_frame_to_peer`, with their destinations. -/
  sent : List (UInt16 × List UInt8) := []

namespace DataPlaneEngine

def new (localNodeId : UInt16) (host : Host) (mrCache : MrCacheTable)
    (transport : TransportManager) : DataPlaneEngine :=
  ⟨localNodeId, host, mrCache, transport, ∅, 1⟩

variable (e : DataPlaneEngine)

def sendFrameToPeer (node : UInt16) (data : List UInt8) : DataPlaneEngine :=
  { e with transport := e.transport.sendFrameToPeer node data }

/-- The response to a request: a status, or data that is also cached. -/
def respond (now : Instant) (remoteNode : UInt16) (ext : DataExtHeader) (verb : Verb)
    (result : Except UbStatus (List UInt8)) : DataPlaneEngine × List (UInt16 × List UInt8) :=
  match result with
  | .error status =>
    let frame := errorResponse e.localNodeId remoteNode ext status
    (e.sendFrameToPeer remoteNode frame, [(remoteNode, frame)])
  | .ok data =>
    let frame := buildDataFrame e.localNodeId remoteNode verb ext.mrHandle ext.ubAddr
      ext.opaqueId data
    let transport := e.transport.readCacheInsert now remoteNode (remoteNode, ext.opaqueId) frame
    ({ e with transport }.sendFrameToPeer remoteNode frame, [(remoteNode, frame)])

/-- Resends the cached response of a request, if it is still there. -/
def resendCached (now : Instant) (remoteNode : UInt16) (opaqueId : UInt64) :
    DataPlaneEngine × Option (List UInt8) :=
  let (transport, cached) := e.transport.readCacheGet now remoteNode (remoteNode, opaqueId)
  let e := { e with transport }
  match cached with
  | some frame => (e.sendFrameToPeer remoteNode frame, some frame)
  | none => (e, none)

/-- Both write verbs: skipped when already executed, else run and marked. -/
def dispatchWrite (remoteNode : UInt16) (seq : ℕ) (run : Host → Handled (Option String)) :
    Dispatched :=
  if e.transport.isExecuted remoteNode seq then { engine := e }
  else
    let handled := run e.host
    { engine :=
        { e with host := handled.host, transport := e.transport.markExecuted remoteNode seq }
      executed := true
      access := handled.access }

/-- Both atomic verbs: a request already executed only has its cached response
resent; otherwise it runs, is answered, and is marked whatever the result. -/
def dispatchAtomic (now : Instant) (remoteNode : UInt16) (seq : ℕ) (ext : DataExtHeader)
    (respVerb : Verb) (run : Host → Handled (Except UbStatus (List UInt8))) : Dispatched :=
  if e.transport.isExecuted remoteNode seq then
    let (e, cached) := e.resendCached now remoteNode ext.opaqueId
    { engine := e, sent := (cached.map fun frame => (remoteNode, frame)).toList }
  else
    let handled := run e.host
    let (e, sent) :=
      { e with host := handled.host }.respond now remoteNode ext respVerb handled.result
    { engine := { e with transport := e.transport.markExecuted remoteNode seq }
      executed := true
      access := handled.access
      sent }

def dispatchReadReq (now : Instant) (remoteNode : UInt16) (payload : List UInt8)
    (ext : DataExtHeader) : Dispatched :=
  match e.resendCached now remoteNode ext.opaqueId with
  | (e, some frame) => { engine := e, sent := [(remoteNode, frame)] }
  | (e, none) =>
    let handled := handleReadReq e.host payload ext
    let (e, sent) :=
      { e with host := handled.host }.respond now remoteNode ext .readResp handled.result
    { engine := e, access := handled.access, sent }

/-- The pending request is found by its identifier alone. -/
def completePendingRequest (ext : DataExtHeader) (payload : List UInt8) (remoteNode : UInt16) :
    Dispatched :=
  match e.pendingRequests.lookup ext.opaqueId with
  | none => { engine := e }
  | some call =>
    let isError := ext.extFlags.contains ExtFlags.errResp
    let status : UbStatus :=
      if isError ∧ payload.length ≥ 4 then UInt32.ofNat (BigEndian.get (payload.take 4)) else 0
    let data := if isError then [] else payload
    { engine :=
        { e with
          pendingRequests := e.pendingRequests.erase ext.opaqueId
          transport := e.transport.completeRequest remoteNode ext.opaqueId }
      completed := some (call, ⟨status, data⟩) }

def handleVerbFrame (now : Instant) (inbound : InboundFrame) : Dispatched :=
  let remoteNode := inbound.header.srcNode
  let ext := inbound.ext
  match ext.verb with
  | .write => e.dispatchWrite remoteNode inbound.seq fun h => handleWrite h inbound.payload ext
  | .readReq => e.dispatchReadReq now remoteNode inbound.payload ext
  | .atomicCas =>
    e.dispatchAtomic now remoteNode inbound.seq ext .atomicCasResp fun h =>
      handleAtomicCas h inbound.payload ext
  | .atomicFaa =>
    e.dispatchAtomic now remoteNode inbound.seq ext .atomicFaaResp fun h =>
      handleAtomicFaa h inbound.payload ext
  | .send =>
    let (host, consumed, _) := handleSend e.host inbound.payload ext
    { engine := { e with host }, consumed }
  | .writeImm =>
    e.dispatchWrite remoteNode inbound.seq fun h => handleWriteImm h inbound.payload ext
  | .readResp | .atomicCasResp | .atomicFaaResp =>
    e.completePendingRequest ext inbound.payload remoteNode

/-- The part of a remote request up to waiting for the response. When sending
fails, the request stays in the pending table. -/
def beginRequest (now : Instant) (addr : UbAddr) (verb : Verb) (payload : List UInt8) :
    DataPlaneEngine × Except UbError UInt64 :=
  match e.mrCache.lookupByAddr addr with
  | none => (e, .error .addrInvalid)
  | some entry =>
    let opaqueId := e.nextOpaque
    let frame := buildDataFrame e.localNodeId entry.ownerNode verb entry.remoteMrHandle addr
      opaqueId payload
    let (transport, sent) := e.transport.send now entry.ownerNode frame false opaqueId
    ({ e with
        nextOpaque := opaqueId + 1
        pendingRequests := e.pendingRequests.insert opaqueId ⟨entry.ownerNode, verb⟩
        transport },
      sent.map fun _ => opaqueId)

def ubReadRemote (now : Instant) (addr : UbAddr) (len : UInt32) :
    DataPlaneEngine × Except UbError UInt64 :=
  e.beginRequest now addr .readReq (BigEndian.put 4 len.toNat)

def ubAtomicCasRemote (now : Instant) (addr : UbAddr) (expect new : UInt64) :
    DataPlaneEngine × Except UbError UInt64 :=
  e.beginRequest now addr .atomicCas (BigEndian.put 8 expect.toNat ++ BigEndian.put 8 new.toNat)

def ubAtomicFaaRemote (now : Instant) (addr : UbAddr) (add : UInt64) :
    DataPlaneEngine × Except UbError UInt64 :=
  e.beginRequest now addr .atomicFaa (BigEndian.put 8 add.toNat)

/-- The caller gives up after the verb timeout. -/
def timeoutRequest (opaqueId : UInt64) : DataPlaneEngine :=
  { e with pendingRequests := e.pendingRequests.erase opaqueId }

/-- Fails the requests among the entries of killed sessions with the link-down status.
Returns the pending table and what was sent to the waiting calls. -/
def failRequests (pending : AList (fun _ : UInt64 => PendingCall)) :
    List RetransmitEntry → AList (fun _ : UInt64 => PendingCall) × List Completion
  | [] => (pending, [])
  | entry :: entries =>
    if entry.isFireAndForget then failRequests pending entries
    else
      match pending.lookup entry.opaqueId with
      | none => failRequests pending entries
      | some call =>
        let (pending, failed) := failRequests (pending.erase entry.opaqueId) entries
        (pending, ⟨entry.opaqueId, call, ⟨4, []⟩⟩ :: failed)

def disconnectPeer (nodeId : UInt16) : DataPlaneEngine × List Completion :=
  let (transport, entries) := e.transport.notifyPeerDown nodeId
  let (pendingRequests, failed) := failRequests e.pendingRequests entries
  ({ e with transport, pendingRequests }, failed)

/-! ## What each kind of dispatch leaves out -/

@[simp] theorem dispatchWrite_completed (node : UInt16) (seq : ℕ)
    (run : Host → Handled (Option String)) : (e.dispatchWrite node seq run).completed = none := by
  unfold dispatchWrite
  split_ifs <;> rfl

@[simp] theorem dispatchWrite_sent (node : UInt16) (seq : ℕ)
    (run : Host → Handled (Option String)) : (e.dispatchWrite node seq run).sent = [] := by
  unfold dispatchWrite
  split_ifs <;> rfl

variable (now : Instant)

@[simp] theorem dispatchReadReq_completed (node : UInt16) (payload : List UInt8)
    (ext : DataExtHeader) :
    (e.dispatchReadReq now node payload ext).completed = none := by
  unfold dispatchReadReq
  split <;> rfl

@[simp] theorem dispatchAtomic_completed (node : UInt16) (seq : ℕ) (ext : DataExtHeader)
    (respVerb : Verb) (run : Host → Handled (Except UbStatus (List UInt8))) :
    (e.dispatchAtomic now node seq ext respVerb run).completed = none := by
  unfold dispatchAtomic
  split_ifs <;> rfl

@[simp] theorem completePendingRequest_sent (ext : DataExtHeader) (payload : List UInt8)
    (node : UInt16) : (e.completePendingRequest ext payload node).sent = [] := by
  unfold completePendingRequest
  split <;> rfl

@[simp] theorem respond_pendingRequests (node : UInt16) (ext : DataExtHeader) (verb : Verb)
    (result : Except UbStatus (List UInt8)) :
    (e.respond now node ext verb result).1.pendingRequests = e.pendingRequests := by
  cases result <;> rfl

@[simp] theorem respond_host (node : UInt16) (ext : DataExtHeader) (verb : Verb)
    (result : Except UbStatus (List UInt8)) :
    (e.respond now node ext verb result).1.host = e.host := by
  cases result <;> rfl

@[simp] theorem resendCached_pendingRequests (node : UInt16) (opaqueId : UInt64) :
    (e.resendCached now node opaqueId).1.pendingRequests = e.pendingRequests := by
  unfold resendCached
  dsimp only
  split <;> rfl

@[simp] theorem dispatchWrite_pendingRequests (node : UInt16) (seq : ℕ)
    (run : Host → Handled (Option String)) :
    (e.dispatchWrite node seq run).engine.pendingRequests = e.pendingRequests := by
  unfold dispatchWrite
  split_ifs <;> rfl

@[simp] theorem dispatchReadReq_pendingRequests (node : UInt16) (payload : List UInt8)
    (ext : DataExtHeader) :
    (e.dispatchReadReq now node payload ext).engine.pendingRequests = e.pendingRequests := by
  have hresend := e.resendCached_pendingRequests now node ext.opaqueId
  unfold dispatchReadReq
  split
  · rename_i e' frame heq
    rw [heq] at hresend
    exact hresend
  · rename_i e' heq
    rw [heq] at hresend
    simpa using hresend

@[simp] theorem dispatchAtomic_pendingRequests (node : UInt16) (seq : ℕ) (ext : DataExtHeader)
    (respVerb : Verb) (run : Host → Handled (Except UbStatus (List UInt8))) :
    (e.dispatchAtomic now node seq ext respVerb run).engine.pendingRequests =
      e.pendingRequests := by
  unfold dispatchAtomic
  split_ifs
  · exact e.resendCached_pendingRequests now node ext.opaqueId
  · exact respond_pendingRequests _ _ _ _ _ _

end DataPlaneEngine
end UniBus.DataPlane
