import UniBus.DataPlane.Engine
import UniBus.Foundations.Runs

/-!
# Error replies at the requester

A reply of `send_error_response` travels as an encoded frame. The requester
decodes it, hands it up unsequenced and dispatches it by its verb, which is the
verb of the request.
-/
namespace UniBus.DataPlane

open Wire Transport

namespace DataPlaneEngine

/-- Dispatches one frame that the transport handed up. -/
def dispatchStep (now : Instant) (e : DataPlaneEngine) (f : InboundFrame) :
    DataPlaneEngine × List Dispatched :=
  ((e.handleVerbFrame now f).engine, [e.handleVerbFrame now f])

/-- Takes a raw frame from the network and dispatches what it hands up. -/
def receive (e : DataPlaneEngine) (now : Instant) (raw : List UInt8) :
    DataPlaneEngine × List Dispatched :=
  let (transport, inbound) := e.transport.handleIncoming now raw
  Runs.run (dispatchStep now) { e with transport } inbound

end DataPlaneEngine

/-- The frame completes the call with the status it carries, touches no local
device, and nothing is sent on account of it. -/
structure Resolved (requester : DataPlaneEngine) (now : Instant) (raw : List UInt8)
    (call : PendingCall) (status : UbStatus) : Prop where
  completed : ∃ data, (requester.receive now raw).2.filterMap Dispatched.completed =
    [(call, ⟨status, data⟩)]
  untouched : ∀ d ∈ (requester.receive now raw).2, d.access = none
  silent : ∀ d ∈ (requester.receive now raw).2, d.sent = []

/-- The header of every frame built without a sequence number. -/
def dataHeader (srcNode dstNode : UInt16) (payload : List UInt8) : FrameHeader :=
  { magic := magic, version := version, frameType := .data, flags := FrameFlags.empty
    srcNode, dstNode, reserved := 0, streamSeq := 0
    payloadLen := UInt32.ofNat payload.length, headerCrc := 0 }

def errorExt (reqExt : DataExtHeader) : DataExtHeader :=
  { verb := reqExt.verb, extFlags := ExtFlags.errResp, mrHandle := reqExt.mrHandle, jettySrc := 0
    jettyDst := 0, opaqueId := reqExt.opaqueId, fragId := 0, fragIndex := 0, fragTotal := 1
    ubAddr := reqExt.ubAddr, imm := none }

theorem decodeFrame_errorResponse (src dst : UInt16) (reqExt : DataExtHeader)
    (status : UbStatus) :
    decodeFrame (errorResponse src dst reqExt status) =
      .ok (dataHeader src dst (BigEndian.put 4 status.toNat), some (errorExt reqExt),
        BigEndian.put 4 status.toNat) := by
  have hflags : FrameFlags.empty.Known := by decide
  have herr : ExtFlags.errResp.Known ∧ false = ExtFlags.errResp.contains ExtFlags.hasImm := by
    decide
  have hheader : (dataHeader src dst (BigEndian.put 4 status.toNat)).WellFormed :=
    ⟨rfl, rfl, hflags⟩
  have hext : (errorExt reqExt).WellFormed := ⟨herr.1, herr.2⟩
  exact decodeFrame_encode_data hheader rfl hext _

/-- An error reply is handed up at once, as a frame with the request's verb. -/
theorem handleIncoming_errorResponse (m : TransportManager) (now : Instant) (src dst : UInt16)
    (reqExt : DataExtHeader) (status : UbStatus) :
    m.handleIncoming now (errorResponse src dst reqExt status) =
      (m, [⟨dataHeader src dst (BigEndian.put 4 status.toNat), errorExt reqExt,
        BigEndian.put 4 status.toNat, 0⟩]) := by
  rw [TransportManager.handleIncoming, decodeFrame_errorResponse]
  rfl

variable (e : DataPlaneEngine) (now : Instant)

theorem completed_of_isRequestVerb {f : InboundFrame} (hverb : isRequestVerb f.ext.verb = true) :
    (e.handleVerbFrame now f).completed = none := by
  cases hv : f.ext.verb with
  | readReq | atomicCas | atomicFaa => simp [DataPlaneEngine.handleVerbFrame, hv]
  | readResp | write | send | writeImm | atomicCasResp | atomicFaaResp =>
    rw [hv] at hverb
    cases hverb

theorem isRequestVerb_of_mem_sent {f : InboundFrame} {p : UInt16 × List UInt8}
    (hp : p ∈ (e.handleVerbFrame now f).sent) : isRequestVerb f.ext.verb = true := by
  cases hv : f.ext.verb with
  | readReq | atomicCas | atomicFaa => rfl
  | write | writeImm | send | readResp | atomicCasResp | atomicFaaResp =>
    simp [DataPlaneEngine.handleVerbFrame, hv] at hp

theorem not_resolved_of_isRequestVerb {src dst : UInt16} {reqExt : DataExtHeader}
    {status : UbStatus} {call : PendingCall} (hverb : isRequestVerb reqExt.verb = true) :
    ¬ Resolved e now (errorResponse src dst reqExt status) call status := by
  intro hres
  obtain ⟨data, hcompleted⟩ := hres.completed
  have hnone := completed_of_isRequestVerb e now
    (f := ⟨dataHeader src dst (BigEndian.put 4 status.toNat), errorExt reqExt,
      BigEndian.put 4 status.toNat, 0⟩) hverb
  rw [DataPlaneEngine.receive, handleIncoming_errorResponse] at hcompleted
  simp [DataPlaneEngine.dispatchStep, hnone] at hcompleted

/-- Whatever request a responder rejects with an error reply, the reply never
resolves a call at the node that receives it. -/
theorem error_reply_never_resolves {responder : DataPlaneEngine} {now : Instant}
    {request : InboundFrame} {status : UbStatus}
    (hsent : (request.header.srcNode,
      errorResponse responder.localNodeId request.header.srcNode request.ext status) ∈
        (responder.handleVerbFrame now request).sent)
    (requester : DataPlaneEngine) (later : Instant) (call : PendingCall) :
    ¬ Resolved requester later
      (errorResponse responder.localNodeId request.header.srcNode request.ext status)
      call status :=
  not_resolved_of_isRequestVerb requester later (isRequestVerb_of_mem_sent _ _ hsent)

/-- A node without regions whose transport knows no peers. -/
def bareEngine (node : UInt16) : DataPlaneEngine :=
  .new node ⟨MrTable.new 1 node, fun _ => ⟨.memory, 0, []⟩, JettyTable.new node 16 16⟩
    MrCacheTable.new (TransportManager.new node ⟨200, 8⟩)

/-- Node 2 asks node 1 to read four bytes of a region that node 1 does not have. -/
def unknownRegionRead : InboundFrame where
  header := ⟨magic, version, .data, FrameFlags.ackReq, 2, 1, 0, 1, 4, 0⟩
  ext := ⟨.readReq, ExtFlags.empty, 7, 0, 0, 1, 0, 0, 1, UbAddr.new 1 1 0 0 0, none⟩
  payload := [0, 0, 0, 4]
  seq := 1

/-- Node 2 while that read is pending. -/
def waitingEngine : DataPlaneEngine :=
  { bareEngine 2 with pendingRequests := AList.insert 1 ⟨1, .readReq⟩ ∅, nextOpaque := 2 }

theorem unknownRegionRead_sent :
    ((bareEngine 1).handleVerbFrame 0 unknownRegionRead).sent =
      [(2, errorResponse 1 2 unknownRegionRead.ext 1)] := rfl

theorem error_reply_never_resolves_unknown_region :
    ¬ Resolved waitingEngine 0 (errorResponse 1 2 unknownRegionRead.ext 1) ⟨1, .readReq⟩ 1 := by
  have hsent : (unknownRegionRead.header.srcNode, errorResponse (bareEngine 1).localNodeId
      unknownRegionRead.header.srcNode unknownRegionRead.ext 1) ∈
        ((bareEngine 1).handleVerbFrame 0 unknownRegionRead).sent := by
    rw [unknownRegionRead_sent]
    exact List.mem_singleton.mpr rfl
  exact error_reply_never_resolves hsent waitingEngine 0 ⟨1, .readReq⟩

/-- The rejected read stays pending at node 2, which treats the reply as a read
request of node 1 and rejects it in turn with another error reply. -/
theorem error_reply_answered_with_error_reply :
    ((bareEngine 1).handleVerbFrame 0 unknownRegionRead).sent =
        [(2, errorResponse 1 2 unknownRegionRead.ext 1)] ∧
      waitingEngine.pendingRequests.lookup unknownRegionRead.ext.opaqueId =
        some ⟨1, .readReq⟩ ∧
      (waitingEngine.receive 0 (errorResponse 1 2 unknownRegionRead.ext 1)).2.map
        Dispatched.sent = [[(1, errorResponse 2 1 (errorExt unknownRegionRead.ext) 1)]] ∧
      ¬ Resolved waitingEngine 0 (errorResponse 1 2 unknownRegionRead.ext 1) ⟨1, .readReq⟩ 1 := by
  refine ⟨rfl, rfl, ?_, not_resolved_of_isRequestVerb _ _ rfl⟩
  rw [DataPlaneEngine.receive, handleIncoming_errorResponse]
  rfl

end UniBus.DataPlane
