import UniBus.DataPlane.Agreement
import UniBus.DataPlane.Panics
import UniBus.DataPlane.RemoteCalls
import UniBus.Transport.CachedResponses
import UniBus.Transport.Patching

/-!
# Frames and the path MTU

`MAX_PAYLOAD_SIZE` leaves 80 of 1400 bytes for the headers. A frame with an immediate
has 88 bytes of headers, and how long the response to a read is, is up to the
requester, whose `ub_read_remote` checks no size. The other frames fit.
-/
namespace UniBus.DataPlane

open Wire Transport

/-- The PMTU from which `MAX_PAYLOAD_SIZE` is derived. -/
def pathMtu : ℕ := 1400

/-! ## Lengths of the frames -/

section
variable (src dst : UInt16) (verb : Verb) (handle : UInt32) (addr : UbAddr) (opaqueId : UInt64)
  (payload : List UInt8)

theorem length_buildDataFrameWithFlags (extFlags : ExtFlags) :
    (buildDataFrameWithFlags src dst verb handle addr opaqueId payload extFlags).length =
      80 + payload.length := by
  simp [buildDataFrameWithFlags, encodeFrame, length_encodeDataExtHeader, DataExtHeader.size,
    frameHeaderSize, dataExtHeaderSize]
  omega

theorem length_buildDataFrame :
    (buildDataFrame src dst verb handle addr opaqueId payload).length = 80 + payload.length :=
  length_buildDataFrameWithFlags src dst verb handle addr opaqueId payload _

theorem length_buildDataFrameEx (jettySrc jettyDst : UInt32) (imm : Option UInt64) :
    (buildDataFrameEx src dst verb handle addr opaqueId jettySrc jettyDst imm payload).length =
      (if imm.isSome then 88 else 80) + payload.length := by
  cases imm <;> simp [buildDataFrameEx, encodeFrame, length_encodeDataExtHeader,
    DataExtHeader.size, frameHeaderSize, dataExtHeaderSize, dataExtHeaderImmSize] <;> omega

end

/-! ## The verbs -/

namespace DataPlaneEngine

variable (e : DataPlaneEngine) (now : Instant)

/-- A frame for the owner of the region that an address falls into. -/
def toOwner (addr : UbAddr) (frame : MrCacheEntry → List UInt8) :
    Except UbError (UInt16 × List UInt8) :=
  match e.mrCache.lookupByAddr addr with
  | none => .error .addrInvalid
  | some entry => .ok (entry.ownerNode, frame entry)

/-- The frame of a fire-and-forget verb, whose size is checked first. -/
def sized (data : List UInt8) (frame : Except UbError (UInt16 × List UInt8)) :
    Except UbError (UInt16 × List UInt8) :=
  if data.length > maxPayloadSize then .error .payloadTooLarge else frame

/-- Sends a frame that expects no response. -/
def post (frame : Except UbError (UInt16 × List UInt8)) : DataPlaneEngine × Except UbError Unit :=
  match frame with
  | .error err => (e, .error err)
  | .ok (nodeId, bytes) =>
    let (transport, sent) := e.transport.send now nodeId bytes true 0
    ({ e with transport }, sent.map fun _ => ())

def writeFrame (addr : UbAddr) (data : List UInt8) : Except UbError (UInt16 × List UInt8) :=
  sized data (e.toOwner addr fun entry =>
    buildDataFrame e.localNodeId entry.ownerNode .write entry.remoteMrHandle addr 0 data)

def sendFrame (jettySrc : UInt32) (dstJetty : JettyAddr) (data : List UInt8)
    (imm : Option UInt64) : Except UbError (UInt16 × List UInt8) :=
  sized data (.ok (dstJetty.nodeId,
    buildDataFrameEx e.localNodeId dstJetty.nodeId .send 0 (UbAddr.new 0 0 0 0 0) 0 jettySrc
      dstJetty.jettyId imm data))

def writeImmFrame (addr : UbAddr) (data : List UInt8) (imm : UInt64) (jettySrc : UInt32)
    (dstJetty : JettyAddr) : Except UbError (UInt16 × List UInt8) :=
  sized data (e.toOwner addr fun entry =>
    buildDataFrameEx e.localNodeId entry.ownerNode .writeImm entry.remoteMrHandle addr 0 jettySrc
      dstJetty.jettyId (some imm) data)

/-- The frame of a request, under the next identifier; there is no size to check. -/
def requestFrame (call : RemoteCall) : Except UbError (UInt16 × List UInt8) :=
  e.toOwner call.addr fun entry =>
    buildDataFrame e.localNodeId entry.ownerNode call.verb entry.remoteMrHandle call.addr
      e.nextOpaque call.payload

def ubWriteRemote (addr : UbAddr) (data : List UInt8) : DataPlaneEngine × Except UbError Unit :=
  e.post now (e.writeFrame addr data)

def ubSendRemote (jettySrc : UInt32) (dstJetty : JettyAddr) (data : List UInt8) :
    DataPlaneEngine × Except UbError Unit :=
  e.post now (e.sendFrame jettySrc dstJetty data none)

def ubSendWithImmRemote (jettySrc : UInt32) (dstJetty : JettyAddr) (data : List UInt8)
    (imm : UInt64) : DataPlaneEngine × Except UbError Unit :=
  e.post now (e.sendFrame jettySrc dstJetty data (some imm))

def ubWriteImmRemote (addr : UbAddr) (data : List UInt8) (imm : UInt64) (jettySrc : UInt32)
    (dstJetty : JettyAddr) : DataPlaneEngine × Except UbError Unit :=
  e.post now (e.writeImmFrame addr data imm jettySrc dstJetty)

end DataPlaneEngine

/-- A call of one of the remote verbs. -/
inductive VerbCall
  | ubWriteRemote (addr : UbAddr) (data : List UInt8)
  | ubSendRemote (jettySrc : UInt32) (dstJetty : JettyAddr) (data : List UInt8)
  | ubSendWithImmRemote (jettySrc : UInt32) (dstJetty : JettyAddr) (data : List UInt8)
      (imm : UInt64)
  | ubWriteImmRemote (addr : UbAddr) (data : List UInt8) (imm : UInt64) (jettySrc : UInt32)
      (dstJetty : JettyAddr)
  | request (call : RemoteCall)

namespace VerbCall

/-- The encoded frame that the call gives to the transport, unless a check fails. -/
def encoded (e : DataPlaneEngine) : VerbCall → Except UbError (UInt16 × List UInt8)
  | ubWriteRemote addr data => e.writeFrame addr data
  | ubSendRemote jettySrc dstJetty data => e.sendFrame jettySrc dstJetty data none
  | ubSendWithImmRemote jettySrc dstJetty data imm =>
    e.sendFrame jettySrc dstJetty data (some imm)
  | ubWriteImmRemote addr data imm jettySrc dstJetty =>
    e.writeImmFrame addr data imm jettySrc dstJetty
  | request call => e.requestFrame call

/-- The engine after the call, or after its request is sent. -/
def start (e : DataPlaneEngine) (now : Instant) : VerbCall → DataPlaneEngine
  | ubWriteRemote addr data => (e.ubWriteRemote now addr data).1
  | ubSendRemote jettySrc dstJetty data => (e.ubSendRemote now jettySrc dstJetty data).1
  | ubSendWithImmRemote jettySrc dstJetty data imm =>
    (e.ubSendWithImmRemote now jettySrc dstJetty data imm).1
  | ubWriteImmRemote addr data imm jettySrc dstJetty =>
    (e.ubWriteImmRemote now addr data imm jettySrc dstJetty).1
  | request call => (call.start e now).1

def data : VerbCall → List UInt8
  | ubWriteRemote _ data | ubSendRemote _ _ data | ubSendWithImmRemote _ _ data _
  | ubWriteImmRemote _ data .. => data
  | request call => call.payload

def hasImm : VerbCall → Bool
  | ubSendWithImmRemote .. | ubWriteImmRemote .. => true
  | _ => false

theorem start_transport (c : VerbCall) (e : DataPlaneEngine) (now : Instant) :
    (c.start e now).transport = e.transport ∨
      ∃ nodeId frame isFireAndForget opaqueId, c.encoded e = .ok (nodeId, frame) ∧
        (c.start e now).transport =
          (e.transport.send now nodeId frame isFireAndForget opaqueId).1 := by
  have hpost : ∀ frame : Except UbError (UInt16 × List UInt8),
      (e.post now frame).1.transport = e.transport ∨
        ∃ nodeId bytes isFireAndForget opaqueId, frame = .ok (nodeId, bytes) ∧
          (e.post now frame).1.transport =
            (e.transport.send now nodeId bytes isFireAndForget opaqueId).1 := by
    intro frame
    cases frame with
    | error err => exact Or.inl rfl
    | ok sent => exact Or.inr ⟨sent.1, sent.2, true, 0, rfl, rfl⟩
  cases c with
  | request call =>
    simp only [start, encoded, RemoteCall.start_eq, DataPlaneEngine.beginRequest,
      DataPlaneEngine.requestFrame, DataPlaneEngine.toOwner]
    cases e.mrCache.lookupByAddr call.addr with
    | none => exact Or.inl rfl
    | some entry => exact Or.inr ⟨_, _, false, e.nextOpaque, rfl, rfl⟩
  | ubWriteRemote => exact hpost _
  | ubSendRemote => exact hpost _
  | ubSendWithImmRemote => exact hpost _
  | ubWriteImmRemote => exact hpost _

variable {out : UInt16 × List UInt8}

theorem sized_eq_ok {data : List UInt8} {frame : Except UbError (UInt16 × List UInt8)}
    (h : DataPlaneEngine.sized data frame = .ok out) :
    data.length ≤ maxPayloadSize ∧ frame = .ok out := by
  unfold DataPlaneEngine.sized at h
  split_ifs at h with hsize
  exact ⟨Nat.not_lt.mp hsize, h⟩

theorem toOwner_eq_ok {e : DataPlaneEngine} {addr : UbAddr} {frame : MrCacheEntry → List UInt8}
    (h : e.toOwner addr frame = .ok out) :
    ∃ entry, out.2 = frame entry := by
  unfold DataPlaneEngine.toOwner at h
  split at h
  · cases h
  · cases h
    exact ⟨_, rfl⟩

theorem length_encoded (c : VerbCall) (e : DataPlaneEngine) (h : c.encoded e = .ok out) :
    c.data.length ≤ maxPayloadSize ∧
      out.2.length = (if c.hasImm then 88 else 80) + c.data.length := by
  cases c with
  | ubWriteRemote addr data =>
    obtain ⟨hsize, hframe⟩ := sized_eq_ok h
    obtain ⟨entry, hout⟩ := toOwner_eq_ok hframe
    rw [hout]
    exact ⟨hsize, length_buildDataFrame ..⟩
  | ubSendRemote jettySrc dstJetty data =>
    obtain ⟨hsize, hframe⟩ := sized_eq_ok h
    cases hframe
    exact ⟨hsize, length_buildDataFrameEx ..⟩
  | ubSendWithImmRemote jettySrc dstJetty data imm =>
    obtain ⟨hsize, hframe⟩ := sized_eq_ok h
    cases hframe
    exact ⟨hsize, length_buildDataFrameEx ..⟩
  | ubWriteImmRemote addr data imm jettySrc dstJetty =>
    obtain ⟨hsize, hframe⟩ := sized_eq_ok h
    obtain ⟨entry, hout⟩ := toOwner_eq_ok hframe
    rw [hout]
    exact ⟨hsize, length_buildDataFrameEx ..⟩
  | request call =>
    obtain ⟨entry, hout⟩ := toOwner_eq_ok h
    have hpayload : call.payload.length ≤ maxPayloadSize := by
      cases call <;> simp [RemoteCall.payload, maxPayloadSize]
    rw [hout]
    exact ⟨hpayload, length_buildDataFrame ..⟩

/-- The frame of a call whose checks pass fits just in case there is room for the
immediate that it carries. -/
theorem encoded_fits_iff (c : VerbCall) (e : DataPlaneEngine) (h : c.encoded e = .ok out) :
    out.2.length ≤ pathMtu ↔ (c.hasImm = true → c.data.length + 8 ≤ maxPayloadSize) := by
  obtain ⟨hsize, hlength⟩ := c.length_encoded e h
  rw [hlength]
  unfold pathMtu maxPayloadSize at *
  cases c.hasImm <;> simp <;> omega

end VerbCall

/-! ## The responses -/

theorem length_responseFrame (owner requester : UInt16) (ext : DataExtHeader) (verb : Verb)
    (result : Except UbStatus (List UInt8)) :
    (responseFrame owner requester ext verb result).length = 80 + (match result with
      | .error _ => 4
      | .ok data => data.length) := by
  cases result with
  | error status =>
    rw [responseFrame, errorResponse, length_buildDataFrameWithFlags]
    simp
  | ok data => exact length_buildDataFrame ..

namespace DataPlaneEngine

variable (e : DataPlaneEngine) (now : Instant) (node : UInt16) (ext : DataExtHeader)
  {P : List UInt8 → Prop}

theorem caches_sendFrameToPeer {e : DataPlaneEngine} (h : e.transport.Caches P)
    (frame : List UInt8) : (e.sendFrameToPeer node frame).transport.Caches P :=
  h.of_sessions_eq (e.transport.sendFrameToPeer_sessions node frame)

section
variable (h : e.transport.Caches P)
include h

theorem caches_respond (verb : Verb) (result : Except UbStatus (List UInt8))
    (hsent : ∀ out ∈ (e.respond now node ext verb result).2, P out.2) :
    (e.respond now node ext verb result).1.transport.Caches P := by
  cases result with
  | error status => exact caches_sendFrameToPeer node h _
  | ok data =>
    have hframe := hsent _ List.mem_cons_self
    exact caches_sendFrameToPeer node (h.readCacheInsert now node _ hframe) _

theorem caches_resendCached (opaqueId : UInt64) :
    (e.resendCached now node opaqueId).1.transport.Caches P ∧
      ∀ frame, (e.resendCached now node opaqueId).2 = some frame → P frame := by
  obtain ⟨hget, hcached⟩ := h.readCacheGet now node (node, opaqueId)
  unfold resendCached
  dsimp only
  cases hsome : (e.transport.readCacheGet now node (node, opaqueId)).2 with
  | none => exact ⟨hget, fun _ hframe => by cases hframe⟩
  | some frame =>
    refine ⟨caches_sendFrameToPeer node hget _, ?_⟩
    intro frame' hframe
    cases hframe
    exact hcached frame hsome

theorem caches_dispatchAtomic (seq : ℕ) (respVerb : Verb)
    (run : Host → Handled (Except UbStatus (List UInt8)))
    (hsent : ∀ out ∈ (e.dispatchAtomic now node seq ext respVerb run).sent, P out.2) :
    (e.dispatchAtomic now node seq ext respVerb run).engine.transport.Caches P := by
  unfold dispatchAtomic at hsent ⊢
  split_ifs at hsent ⊢
  · exact (e.caches_resendCached now node h ext.opaqueId).1
  · exact (caches_respond { e with host := (run e.host).host } now node ext h respVerb
      (run e.host).result hsent).markExecuted node seq

theorem caches_dispatchReadReq (payload : List UInt8)
    (hsent : ∀ out ∈ (e.dispatchReadReq now node payload ext).sent, P out.2) :
    (e.dispatchReadReq now node payload ext).engine.transport.Caches P := by
  have hresend := (e.caches_resendCached now node h ext.opaqueId).1
  unfold dispatchReadReq at hsent ⊢
  split at hsent
  · rename_i e' frame heq
    rw [heq] at hresend
    simpa [heq] using hresend
  · rename_i e' heq
    rw [heq] at hresend
    exact caches_respond { e' with host := (handleReadReq e'.host payload ext).host } now node ext
      hresend .readResp (handleReadReq e'.host payload ext).result hsent

theorem caches_handleVerbFrame (f : InboundFrame)
    (hsent : ∀ out ∈ (e.handleVerbFrame now f).sent, P out.2) :
    (e.handleVerbFrame now f).engine.transport.Caches P := by
  have hwrite : ∀ run, (e.dispatchWrite f.header.srcNode f.seq run).engine.transport.Caches P := by
    intro run
    unfold dispatchWrite
    split_ifs
    · exact h
    · exact h.markExecuted _ _
  have hresponse : (e.completePendingRequest f.ext f.payload
      f.header.srcNode).engine.transport.Caches P := by
    unfold completePendingRequest
    split
    · exact h
    · exact h.completeRequest _ _
  unfold handleVerbFrame at hsent ⊢
  dsimp only at hsent ⊢
  cases hverb : f.ext.verb with
  | write => exact hwrite _
  | writeImm => exact hwrite _
  | send => exact h
  | readResp | atomicCasResp | atomicFaaResp => exact hresponse
  | readReq =>
    rw [hverb] at hsent
    exact e.caches_dispatchReadReq now _ f.ext h f.payload hsent
  | atomicCas =>
    rw [hverb] at hsent
    exact e.caches_dispatchAtomic now _ f.ext h f.seq .atomicCasResp _ hsent
  | atomicFaa =>
    rw [hverb] at hsent
    exact e.caches_dispatchAtomic now _ f.ext h f.seq .atomicFaaResp _ hsent

end

def CachesFit (e : DataPlaneEngine) : Prop := e.transport.Caches fun frame => frame.length ≤ pathMtu

theorem respond_fits_iff (verb : Verb) (result : Except UbStatus (List UInt8)) :
    (∀ out ∈ (e.respond now node ext verb result).2, out.2.length ≤ pathMtu) ↔
      ∀ data, result = .ok data → data.length ≤ maxPayloadSize := by
  rw [respond_sent, List.forall_mem_singleton, length_responseFrame]
  cases result with
  | error status => simp [pathMtu]
  | ok data =>
    simp only [pathMtu, maxPayloadSize, Except.ok.injEq, forall_eq']
    omega

theorem dispatchAtomic_fits (h : e.CachesFit) (seq : ℕ) (respVerb : Verb)
    {run : Host → Handled (Except UbStatus (List UInt8))}
    (hrun : ∀ data, (run e.host).result = .ok data → data.length = 16) :
    ∀ out ∈ (e.dispatchAtomic now node seq ext respVerb run).sent, out.2.length ≤ pathMtu := by
  unfold dispatchAtomic
  split_ifs
  · intro out hout
    obtain ⟨frame, hframe, rfl⟩ := Option.map_eq_some_iff.mp (Option.mem_toList.mp hout)
    exact (e.caches_resendCached now node h ext.opaqueId).2 frame hframe
  · apply (respond_fits_iff { e with host := (run e.host).host } now node ext respVerb _).mpr
    intro data hdata
    rw [hrun data hdata]
    decide

/-- A read that is answered anew asks for no more than fits behind the header. -/
def ReadFits (f : InboundFrame) : Prop :=
  (e.transport.readCacheGet now f.header.srcNode (f.header.srcNode, f.ext.opaqueId)).2 = none →
    ∀ data, (handleReadReq e.host f.payload f.ext).result = .ok data →
      readLen f.payload ≤ maxPayloadSize

theorem dispatchReadReq_fits_iff (h : e.CachesFit) (f : InboundFrame) :
    (∀ out ∈ (e.dispatchReadReq now f.header.srcNode f.payload f.ext).sent,
      out.2.length ≤ pathMtu) ↔ e.ReadFits now f := by
  obtain ⟨hresend, hcached⟩ := e.caches_resendCached now f.header.srcNode h f.ext.opaqueId
  unfold dispatchReadReq ReadFits
  cases hget : (e.transport.readCacheGet now f.header.srcNode
      (f.header.srcNode, f.ext.opaqueId)).2 with
  | some frame =>
    obtain ⟨e', heq⟩ : ∃ e', e.resendCached now f.header.srcNode f.ext.opaqueId =
        (e', some frame) := ⟨_, Prod.ext rfl (e.resendCached_of_some hget)⟩
    rw [heq] at hcached ⊢
    simpa using hcached frame rfl
  | none =>
    rw [e.resendCached_of_none hget]
    refine (respond_fits_iff _ now f.header.srcNode f.ext .readResp _).trans ?_
    constructor
    · intro hfits _ data hdata
      rw [← length_handleReadReq e.host f.payload f.ext hdata]
      exact hfits data hdata
    · intro hfits data hdata
      rw [length_handleReadReq e.host f.payload f.ext hdata]
      exact hfits rfl data hdata

/-- Of the frames that arrive only a read request can draw a response that does not fit. -/
theorem handleVerbFrame_fits_iff (h : e.CachesFit) (f : InboundFrame) :
    (∀ out ∈ (e.handleVerbFrame now f).sent, out.2.length ≤ pathMtu) ↔
      (f.ext.verb = .readReq → e.ReadFits now f) := by
  unfold handleVerbFrame
  dsimp only
  cases hverb : f.ext.verb with
  | write | writeImm | send | readResp | atomicCasResp | atomicFaaResp => simp
  | readReq => simpa using e.dispatchReadReq_fits_iff now h f
  | atomicCas =>
    simp only [reduceCtorEq, false_implies, iff_true]
    apply e.dispatchAtomic_fits now _ _ h
    intro data hdata
    exact length_handleAtomic e.host _ _ _ _ _ hdata
  | atomicFaa =>
    simp only [reduceCtorEq, false_implies, iff_true]
    apply e.dispatchAtomic_fits now _ _ h
    intro data hdata
    exact length_handleAtomic e.host _ _ _ _ _ hdata

end DataPlaneEngine

/-! ## Runs of a node -/

inductive NodeInput
  | call (now : Instant) (c : VerbCall)
  | task (t : EngineTask)

namespace NodeInput

/-- A step of a node, with the data frames that are encoded in it and their
destinations. -/
def step (e : DataPlaneEngine) : NodeInput → DataPlaneEngine × List (UInt16 × List UInt8)
  | call now c => (c.start e now, (c.encoded e).toOption.toList)
  -- the calls are spelled out here, so that nothing else is posted
  | task (.post ..) => (e, [])
  | task (.handleVerbFrame now f) =>
    ((e.handleVerbFrame now f).engine, (e.handleVerbFrame now f).sent)
  | task t => ((e.runTask t).1, [])

/-- There is room for the immediate of a call, and a read that is answered asks for no
more than fits. -/
def Fits (e : DataPlaneEngine) : NodeInput → Prop
  | call _ c => ∀ out, c.encoded e = .ok out → c.hasImm = true →
      c.data.length + 8 ≤ maxPayloadSize
  | task (.handleVerbFrame now f) => f.ext.verb = .readReq → e.ReadFits now f
  | task _ => True

variable {e : DataPlaneEngine}

theorem sent_fits_iff (h : e.CachesFit) (i : NodeInput) :
    (∀ out ∈ (step e i).2, out.2.length ≤ pathMtu) ↔ i.Fits e := by
  cases i with
  | call now c =>
    simp only [step, Fits]
    cases hencoded : c.encoded e with
    | error err => simp [Except.toOption]
    | ok out => simpa [Except.toOption] using c.encoded_fits_iff e hencoded
  | task t =>
    cases t with
    | handleVerbFrame now f => exact e.handleVerbFrame_fits_iff now h f
    | _ => simp [step, Fits]

theorem cachesFit_step (h : e.CachesFit) (i : NodeInput)
    (hsent : ∀ out ∈ (step e i).2, out.2.length ≤ pathMtu) : (step e i).1.CachesFit := by
  cases i with
  | call now c =>
    rcases c.start_transport e now with hsame | ⟨nodeId, frame, fire, opaqueId, -, hsend⟩
    · exact h.of_sessions_eq (congrArg TransportManager.sessions hsame)
    · exact (h.send now nodeId frame fire opaqueId).of_sessions_eq
        (congrArg TransportManager.sessions hsend)
  | task t =>
    cases t with
    | handleVerbFrame now f => exact e.caches_handleVerbFrame now h f hsent
    | disconnectPeer nodeId => exact h.notifyPeerDown nodeId
    | operate op => exact h.operate op
    | handleIncoming now raw => exact h.handleIncoming now raw
    | post => exact h
    | grantCredits nodeId count => exact h.grantCredits nodeId count
    | registerPeerSender nodeId sender => exact h.of_sessions_eq rfl
    | removePeerSender nodeId => exact h.of_sessions_eq rfl
    | refresh host mrCache => exact h

end NodeInput

/-- A read request that arrives asks for the length that its call was given. -/
theorem readLen_of_request {src dst : UInt16} {handle : UInt32} {addr : UbAddr} {len : UInt32}
    {opaqueId : UInt64} {seq : ℕ} {f : InboundFrame}
    (h : decodeFrame (ReliableSession.patchAckReq (ReliableSession.patchSeq
      (buildDataFrame src dst .readReq handle addr opaqueId
        (RemoteCall.ubReadRemote addr len).payload) seq)) =
      .ok (f.header, some f.ext, f.payload)) :
    f.ext.verb = .readReq ∧ readLen f.payload = len.toNat := by
  have hdecode := decodeFrame_patch (decodeFrame_build src dst .readReq handle addr opaqueId
    (RemoteCall.ubReadRemote addr len).payload ExtFlags.empty (by decide) (by decide)) seq
  have hsame := h.symm.trans hdecode
  simp only [Except.ok.injEq, Prod.mk.injEq, Option.some.injEq] at hsame
  obtain ⟨-, hext, hpayload⟩ := hsame
  rw [hext, hpayload]
  exact ⟨rfl, readLen_put len⟩

/-- A node sends only frames that fit the path MTU just in case no call with an immediate
has more than 1312 bytes of data and no read is answered with more than 1320, which is
what the call of `ub_read_remote` asked for. -/
theorem frames_fit_path_mtu_iff (localNodeId : UInt16) (host : Host) (mrCache : MrCacheTable)
    (config : TransportConfig) (inputs : List NodeInput) :
    let node := DataPlaneEngine.new localNodeId host mrCache (.new localNodeId config)
    ((∀ out ∈ (Runs.run NodeInput.step node inputs).2, out.2.length ≤ pathMtu) ↔
      Runs.Meets NodeInput.step (fun e _ i => i.Fits e) node [] inputs) ∧
    ∀ (src dst : UInt16) (handle : UInt32) (addr : UbAddr) (len : UInt32) (opaqueId : UInt64)
      (seq : ℕ) (f : InboundFrame),
      decodeFrame (ReliableSession.patchAckReq (ReliableSession.patchSeq
        (buildDataFrame src dst .readReq handle addr opaqueId
          (RemoteCall.ubReadRemote addr len).payload) seq)) =
        .ok (f.header, some f.ext, f.payload) → readLen f.payload = len.toNat := by
  intro node
  constructor
  · have hnew : node.CachesFit := TransportManager.caches_new localNodeId config
    have hiff : ∀ (e : DataPlaneEngine) (_ : List (UInt16 × List UInt8)) (i : NodeInput),
        e.CachesFit →
          ((∀ out ∈ (NodeInput.step e i).2, out.2.length ≤ pathMtu) ↔ i.Fits e) :=
      fun e _ i h => NodeInput.sent_fits_iff h i
    have hstep : ∀ (e : DataPlaneEngine) (_ : List (UInt16 × List UInt8)) (i : NodeInput),
        e.CachesFit → (∀ out ∈ (NodeInput.step e i).2, out.2.length ≤ pathMtu) →
          (NodeInput.step e i).1.CachesFit :=
      fun e _ i h hsent => NodeInput.cachesFit_step h i hsent
    exact Runs.forall_log_iff.trans (Runs.meets_iff hiff hstep hnew inputs)
  · intro src dst handle addr len opaqueId seq f h
    exact (readLen_of_request h).2

/-- Node 1 with a region of 2048 bytes and a channel to node 2. -/
def largeRegionNode : DataPlaneEngine :=
  (Runs.run NodeInput.step
    (.new 1 ⟨registerCall (fun _ => ⟨.memory, 0, List.replicate 2048 0⟩) (MrTable.new 1 1)
      ⟨0, 2048, .read⟩, fun _ => ⟨.memory, 0, List.replicate 2048 0⟩, JettyTable.new 1 16 16⟩
      MrCacheTable.new (.new 1 ⟨200, 8⟩))
    [.task (.operate (.createSession 2 5 64)), .task (.registerPeerSender 2 ⟨[], 256, false⟩)]).1

def readingNode : DataPlaneEngine :=
  (Runs.run NodeInput.step
    (.new 2 ⟨MrTable.new 1 2, fun _ => ⟨.memory, 0, []⟩, JettyTable.new 2 16 16⟩
      (MrCacheTable.new.insert ⟨1, 1, UbAddr.new 1 1 0 0 0, 2048, .read, .memory⟩)
      (.new 2 ⟨200, 8⟩))
    [.task (.operate (.createSession 1 5 64)), .task (.registerPeerSender 1 ⟨[], 256, false⟩)]).1

def queuedFrames (e : DataPlaneEngine) (nodeId : UInt16) : List (List UInt8) :=
  (e.transport.peerSenders.lookup nodeId).elim [] Sender.queue

/-- A message of 1320 bytes passes the size check and goes out with its immediate in 1408
bytes. A read of 1321 bytes is answered with a frame of 1401. -/
theorem frames_exceed_path_mtu :
    let sent := largeRegionNode.ubSendWithImmRemote 0 7 ⟨2, 3⟩ (List.replicate 1320 0) 9
    let asked := (readingNode.ubReadRemote 0 (UbAddr.new 1 1 0 0 0) 1321).1
    sent.2.isOk = true ∧ (queuedFrames sent.1 2).map List.length = [1408] ∧
      (queuedFrames asked 1).map (fun raw =>
        (queuedFrames (largeRegionNode.receive 0 raw).1 2).map List.length) = [[1401]] := by
  decide +kernel

end UniBus.DataPlane
