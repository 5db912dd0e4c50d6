import UniBus.Foundations.Maps
import UniBus.Transport.Session

/-!
# The transport manager

Sessions by key, the current epoch of each peer and the bounded outgoing
channels. An operation that hands frames to the engine returns them in order;
the unbounded channel in between only queues them.
-/
namespace UniBus.Transport

open Wire

structure InboundFrame where
  header : FrameHeader
  ext : DataExtHeader
  payload : List UInt8
  seq : ℕ
  deriving DecidableEq, Repr

/-- A bounded channel to a peer; `trySend` fails when it is full or closed. -/
structure Sender where
  queue : List (List UInt8)
  capacity : ℕ
  closed : Bool
  deriving DecidableEq, Repr

def Sender.trySend (sender : Sender) (data : List UInt8) : Option Sender :=
  if sender.closed || decide (sender.queue.length ≥ sender.capacity) then none
  else some { sender with queue := sender.queue ++ [data] }

/-- The blocking send waits for room, so that only a closed channel refuses. -/
def Sender.send (sender : Sender) (data : List UInt8) : Option Sender :=
  if sender.closed then none else some { sender with queue := sender.queue ++ [data] }

structure TransportConfig where
  rtoMs : ℕ
  maxRetries : ℕ
  deriving DecidableEq, Repr

structure TransportManager where
  localNodeId : UInt16
  sessions : AList (fun _ : SessionKey => ReliableSession)
  peerSenders : AList (fun _ : UInt16 => Sender)
  config : TransportConfig
  peerEpochs : AList (fun _ : UInt16 => UInt32)

def buildAckFrame (localNode remoteNode : UInt16) (ack : AckPayload) : List UInt8 :=
  encodeFrame
    { magic := magic, version := version, frameType := .ack
      flags := if ack.sackBitmap.isSome then FrameFlags.hasSack else FrameFlags.empty
      srcNode := localNode, dstNode := remoteNode, reserved := 0, streamSeq := 0
      payloadLen := 0, headerCrc := 0 }
    none (encodeAckPayload ack)

def buildCreditFrame (localNode remoteNode : UInt16) (credits : UInt32) : List UInt8 :=
  encodeFrame
    { magic := magic, version := version, frameType := .credit, flags := FrameFlags.empty
      srcNode := localNode, dstNode := remoteNode, reserved := 0, streamSeq := 0
      payloadLen := 0, headerCrc := 0 }
    none (encodeCreditPayload ⟨credits, 0⟩)

theorem decodeFrame_buildAckFrame (localNode remoteNode : UInt16) (ack : AckPayload) :
    ∃ header, decodeFrame (buildAckFrame localNode remoteNode ack) =
        .ok (header, none, encodeAckPayload ack) ∧
      header.frameType = .ack ∧ header.payloadLen = 0 ∧
      header.flags.contains .hasSack = ack.sackBitmap.isSome := by
  have hflags : ∀ b : Bool, (if b then FrameFlags.hasSack else FrameFlags.empty).Known ∧
      (if b then FrameFlags.hasSack else FrameFlags.empty).contains .hasSack = b := by decide
  refine ⟨_, decodeFrame_encode_control ⟨rfl, rfl, (hflags _).1⟩ ?_ _, rfl, rfl, (hflags _).2⟩
  intro htype
  cases htype

theorem decodeFrame_buildCreditFrame (localNode remoteNode : UInt16) (credits : UInt32) :
    ∃ header, decodeFrame (buildCreditFrame localNode remoteNode credits) =
        .ok (header, none, encodeCreditPayload ⟨credits, 0⟩) ∧
      header.frameType = .credit ∧ header.payloadLen = 0 := by
  have hflags : FrameFlags.empty.Known := by decide
  refine ⟨_, decodeFrame_encode_control ⟨rfl, rfl, hflags⟩ ?_ _, rfl, rfl⟩
  intro htype
  cases htype

/-- Verbs whose duplicates are handed up so that the cached response is resent. -/
def isRequestVerb : Verb → Bool
  | .readReq | .atomicCas | .atomicFaa => true
  | _ => false

/-- One session in a round of the retransmission task, with the frames it
resends. A session that the timeout check kills resends nothing. -/
def ReliableSession.tick (session : ReliableSession) (now : Instant) :
    ReliableSession × List (UInt16 × List UInt8) :=
  if session.state ≠ .active then (session, [])
  else
    let (session, timeoutSeqs) := session.checkRto now
    if session.state = .dead then (session, [])
    else
      (session, timeoutSeqs.filterMap fun seq =>
        (session.getRetransmitEntry seq).map fun entry => (session.key.remoteNode, entry.frame))

namespace TransportManager

def new (localNodeId : UInt16) (config : TransportConfig) : TransportManager :=
  ⟨localNodeId, ∅, ∅, config, ∅⟩

variable (m : TransportManager)

def keyFor (remoteNode : UInt16) (epoch : UInt32) : SessionKey :=
  ⟨m.localNodeId, remoteNode, epoch⟩

/-- The key of a peer's current session; epoch 0 when none is recorded. -/
def currentKey (remoteNode : UInt16) : SessionKey :=
  m.keyFor remoteNode ((m.peerEpochs.lookup remoteNode).getD 0)

def setSession (key : SessionKey) (session : ReliableSession) : TransportManager :=
  { m with sessions := m.sessions.insert key session }

def createSession (remoteNode : UInt16) (epoch : UInt32) (initialCredits : UInt32) :
    Except UbError TransportManager :=
  let key := m.keyFor remoteNode epoch
  if key ∈ m.sessions then
    .error (.internal ("session already exists for SessionKey \x7b local_node: " ++
      toString key.localNode ++ ", remote_node: " ++ toString key.remoteNode ++
      ", epoch: " ++ toString key.epoch ++ " \x7d"))
  else
    .ok { m with
      sessions := m.sessions.insert key
        (.new m.localNodeId remoteNode epoch m.config.rtoMs m.config.maxRetries initialCredits)
      peerEpochs := m.peerEpochs.insert remoteNode epoch }

def invalidateSession (remoteNode : UInt16) (oldEpoch : UInt32) :
    TransportManager × List RetransmitEntry :=
  let key := m.keyFor remoteNode oldEpoch
  match m.sessions.lookup key with
  | some session => ({ m with sessions := m.sessions.erase key }, session.kill.2)
  | none => (m, [])

/-- Sends without sequencing; a full or missing channel drops the frame. -/
def sendFrameToPeer (remoteNode : UInt16) (data : List UInt8) : TransportManager :=
  match m.peerSenders.lookup remoteNode with
  | some sender =>
    match sender.trySend data with
    | some sender => { m with peerSenders := m.peerSenders.insert remoteNode sender }
    | none => m
  | none => m

/-- Reliable send: the session keeps the frame even when the channel refuses it. -/
def send (now : Instant) (remoteNode : UInt16) (frameData : List UInt8)
    (isFireAndForget : Bool) (opaqueId : UInt64) : TransportManager × Except UbError ℕ :=
  match m.peerEpochs.lookup remoteNode with
  | none => (m, .error .linkDown)
  | some epoch =>
    let key := m.keyFor remoteNode epoch
    match m.sessions.lookup key with
    | none => (m, .error .linkDown)
    | some session =>
      if session.state ≠ .active then (m, .error .linkDown)
      else
        match session.consumeCredit with
        | .error e => (m, .error e)
        | .ok session =>
          let (session, frame, seq) := session.assignSeq now frameData isFireAndForget opaqueId
          let m := m.setSession key session
          match m.peerSenders.lookup remoteNode with
          | none => (m, .error .linkDown)
          | some sender =>
            match sender.trySend frame with
            | none => (m, .error .linkDown)
            | some sender =>
              ({ m with peerSenders := m.peerSenders.insert remoteNode sender }, .ok seq)

def registerPeerSender (nodeId : UInt16) (sender : Sender) : TransportManager :=
  { m with peerSenders := m.peerSenders.insert nodeId sender }

def removePeerSender (nodeId : UInt16) : TransportManager :=
  { m with peerSenders := m.peerSenders.erase nodeId }

/-- Kills all sessions of a peer; returns their unacknowledged entries. -/
def notifyPeerDown (nodeId : UInt16) : TransportManager × List RetransmitEntry :=
  let killed := m.sessions.entries.filter fun e => e.1.remoteNode == nodeId
  ({ m with
      peerSenders := m.peerSenders.erase nodeId
      sessions := killed.foldl (fun sessions e => sessions.erase e.1) m.sessions
      peerEpochs := m.peerEpochs.erase nodeId },
    killed.flatMap fun e => e.2.kill.2)

/-- Looks up the current session of a peer whose epoch is recorded. -/
def findSession (remoteNode : UInt16) : Option (SessionKey × ReliableSession) :=
  match m.peerEpochs.lookup remoteNode with
  | none => none
  | some epoch =>
    let key := m.keyFor remoteNode epoch
    (m.sessions.lookup key).map fun session => (key, session)

/-- Changes the current session of a peer, if there is one. -/
def modifySession (remoteNode : UInt16) (f : ReliableSession → ReliableSession) :
    TransportManager :=
  match m.findSession remoteNode with
  | some (key, session) => m.setSession key (f session)
  | none => m

def markExecuted (remoteNode : UInt16) (seq : ℕ) : TransportManager :=
  m.modifySession remoteNode fun session => session.markExecuted seq

def isExecuted (remoteNode : UInt16) (seq : ℕ) : Bool :=
  match m.findSession remoteNode with
  | some (_, session) => session.isExecuted seq
  | none => false

def completeRequest (remoteNode : UInt16) (opaqueId : UInt64) : TransportManager :=
  m.modifySession remoteNode fun session => session.completeRequest opaqueId

def readCacheGet (now : Instant) (remoteNode : UInt16) (key : CacheKey) :
    TransportManager × Option (List UInt8) :=
  match m.findSession remoteNode with
  | some (sessionKey, session) =>
    let (cache, response) := session.readCache.get now key
    (m.setSession sessionKey { session with readCache := cache }, response)
  | none => (m, none)

def readCacheInsert (now : Instant) (remoteNode : UInt16) (key : CacheKey)
    (response : List UInt8) : TransportManager :=
  m.modifySession remoteNode fun session =>
    { session with readCache := session.readCache.insert now key response }

/-- Grants credits; enough of them go out at once unless an ACK is due anyway. -/
def grantCredits (remoteNode : UInt16) (count : UInt32) : TransportManager :=
  match m.findSession remoteNode with
  | none => m
  | some (key, session) =>
    let session := { session with creditsToGrant := session.creditsToGrant + count }
    if session.creditsToGrant ≥ 8 ∧ session.shouldSendAck = false then
      let m := m.setSession key { session with creditsToGrant := 0 }
      m.sendFrameToPeer remoteNode
        (buildCreditFrame m.localNodeId remoteNode session.creditsToGrant)
    else m.setSession key session

/-- What a receive action hands to the engine. -/
def handedUp (action : ReceiveAction) (frame : InboundFrame) : List InboundFrame :=
  match action with
  | .deliver => [frame]
  | .duplicate => if isRequestVerb frame.ext.verb then [frame] else []
  | .outOfOrder => []
  | .beyondWindow => []

/-- The acknowledgement part of `handle_data_frame`. -/
def acknowledge (key : SessionKey) (remoteNode : UInt16) (session : ReliableSession)
    (action : ReceiveAction) : TransportManager :=
  if action = .beyondWindow then m.setSession key session
  else if action = .duplicate ∨ action = .outOfOrder ∨ session.shouldSendAck = true then
    let (session, ack) := session.buildAckPayload (action == .outOfOrder)
    (m.setSession key session).sendFrameToPeer session.key.remoteNode
      (buildAckFrame m.localNodeId remoteNode ack)
  else m.setSession key session

def handleDataFrame (header : FrameHeader) (ext : DataExtHeader) (payload : List UInt8) :
    TransportManager × List InboundFrame :=
  let remoteNode := header.srcNode
  let seq := header.streamSeq.toNat
  let frame : InboundFrame := ⟨header, ext, payload, seq⟩
  if seq = 0 then (m, [frame])
  else
    let key := m.currentKey remoteNode
    match m.sessions.lookup key with
    | none => (m, [frame])
    | some session =>
      if session.state ≠ .active then (m, [])
      else
        let (session, action) := session.receiveFrame seq
        (m.acknowledge key remoteNode session action, handedUp action frame)

def handleAckFrame (now : Instant) (header : FrameHeader) (payload : List UInt8) :
    TransportManager :=
  match decodeAckPayload payload (header.flags.contains FrameFlags.hasSack) with
  | .error _ => m
  | .ok ack =>
    let key := m.currentKey header.srcNode
    match m.sessions.lookup key with
    | none => m
    | some session =>
      let (session, retransmitSeq) := session.processAckForFastRetransmit ack
      let entry := retransmitSeq.bind session.getRetransmitEntry
      let m := m.setSession key (session.processAck now ack).1
      match entry with
      | some entry => m.sendFrameToPeer session.key.remoteNode entry.frame
      | none => m

def handleCreditFrame (header : FrameHeader) (payload : List UInt8) : TransportManager :=
  match decodeCreditPayload payload with
  | .error _ => m
  | .ok credit =>
    let key := m.currentKey header.srcNode
    match m.sessions.lookup key with
    | none => m
    | some session => m.setSession key (session.addCredits credit.credits)

def handleIncoming (now : Instant) (raw : List UInt8) : TransportManager × List InboundFrame :=
  match decodeFrame raw with
  | .error _ => (m, [])
  | .ok (header, ext, payload) =>
    match header.frameType with
    | .data =>
      match ext with
      | some ext => m.handleDataFrame header ext payload
      | none => (m, [])
    | .ack => (m.handleAckFrame now header payload, [])
    | .credit => (m.handleCreditFrame header payload, [])

def resendToPeer (remoteNode : UInt16) (frame : List UInt8) : TransportManager :=
  match m.peerSenders.lookup remoteNode with
  | some sender =>
    match sender.send frame with
    | some sender => { m with peerSenders := m.peerSenders.insert remoteNode sender }
    | none => m
  | none => m

/-- One round of the retransmission task over all sessions. -/
def rtoTick (now : Instant) : TransportManager :=
  let frames := m.sessions.entries.flatMap fun e => (e.2.tick now).2
  let m := { m with sessions := Maps.mapValues (fun _ session => (session.tick now).1) m.sessions }
  frames.foldl (fun m f => m.resendToPeer f.1 f.2) m

/-! ## Frame facts -/

@[simp] theorem sendFrameToPeer_sessions (node : UInt16) (data : List UInt8) :
    (m.sendFrameToPeer node data).sessions = m.sessions := by
  unfold sendFrameToPeer
  split
  · split <;> rfl
  · rfl

@[simp] theorem sendFrameToPeer_peerEpochs (node : UInt16) (data : List UInt8) :
    (m.sendFrameToPeer node data).peerEpochs = m.peerEpochs := by
  unfold sendFrameToPeer
  split
  · split <;> rfl
  · rfl

@[simp] theorem sendFrameToPeer_localNodeId (node : UInt16) (data : List UInt8) :
    (m.sendFrameToPeer node data).localNodeId = m.localNodeId := by
  unfold sendFrameToPeer
  split
  · split <;> rfl
  · rfl

@[simp] theorem acknowledge_peerEpochs (key : SessionKey) (node : UInt16)
    (session : ReliableSession) (action : ReceiveAction) :
    (m.acknowledge key node session action).peerEpochs = m.peerEpochs := by
  unfold acknowledge
  dsimp only
  split_ifs <;> simp [setSession]

@[simp] theorem acknowledge_localNodeId (key : SessionKey) (node : UInt16)
    (session : ReliableSession) (action : ReceiveAction) :
    (m.acknowledge key node session action).localNodeId = m.localNodeId := by
  unfold acknowledge
  dsimp only
  split_ifs <;> simp [setSession]

theorem acknowledge_sessions (key : SessionKey) (node : UInt16) (session : ReliableSession)
    (action : ReceiveAction) :
    ∃ session', (m.acknowledge key node session action).sessions =
        m.sessions.insert key session' ∧
      (session' = session ∨ ∃ hasGap, session' = (session.buildAckPayload hasGap).1) := by
  unfold acknowledge
  dsimp only
  split_ifs
  · exact ⟨session, rfl, Or.inl rfl⟩
  · exact ⟨_, sendFrameToPeer_sessions _ _ _, Or.inr ⟨_, rfl⟩⟩
  · exact ⟨session, rfl, Or.inl rfl⟩

/-- A sequenced frame on an active session: the window decides what is handed
up, and only the window and the ACK counters change. -/
theorem handleDataFrame_active {header : FrameHeader} (ext : DataExtHeader)
    (payload : List UInt8) {session : ReliableSession} (hseq : header.streamSeq.toNat ≠ 0)
    (hlookup : m.sessions.lookup (m.currentKey header.srcNode) = some session)
    (hactive : session.state = .active) :
    let next := m.handleDataFrame header ext payload
    let received := session.receiveFrame header.streamSeq.toNat
    next.2 = handedUp received.2 ⟨header, ext, payload, header.streamSeq.toNat⟩ ∧
    ∃ session', next.1.sessions = m.sessions.insert (m.currentKey header.srcNode) session' ∧
      session'.dedup = received.1.dedup ∧ session'.state = .active ∧
      session'.executionRecords = session.executionRecords := by
  intro next received
  have hnext : next = (m.acknowledge (m.currentKey header.srcNode) header.srcNode
      received.1 received.2,
      handedUp received.2 ⟨header, ext, payload, header.streamSeq.toNat⟩) := by
    simp only [next, handleDataFrame, if_neg hseq, hlookup]
    simp [hactive, received]
  obtain ⟨session', hsessions, hor⟩ := m.acknowledge_sessions (m.currentKey header.srcNode)
    header.srcNode received.1 received.2
  refine ⟨by rw [hnext], session', by rw [hnext]; exact hsessions, ?_⟩
  have hstate : received.1.state = .active := by
    rw [← hactive]
    exact session.receiveFrame_state _
  obtain rfl | ⟨hasGap, rfl⟩ := hor
  · exact ⟨rfl, hstate, session.receiveFrame_executionRecords _⟩
  · exact ⟨rfl, hstate, session.receiveFrame_executionRecords _⟩

@[simp] theorem handleDataFrame_peerEpochs (header : FrameHeader) (ext : DataExtHeader)
    (payload : List UInt8) :
    (m.handleDataFrame header ext payload).1.peerEpochs = m.peerEpochs := by
  unfold handleDataFrame
  dsimp only
  split_ifs
  · rfl
  · split
    · rfl
    · split_ifs <;> simp

@[simp] theorem handleDataFrame_localNodeId (header : FrameHeader) (ext : DataExtHeader)
    (payload : List UInt8) :
    (m.handleDataFrame header ext payload).1.localNodeId = m.localNodeId := by
  unfold handleDataFrame
  dsimp only
  split_ifs
  · rfl
  · split
    · rfl
    · split_ifs <;> simp

@[simp] theorem handleDataFrame_currentKey (header : FrameHeader) (ext : DataExtHeader)
    (payload : List UInt8) (node : UInt16) :
    (m.handleDataFrame header ext payload).1.currentKey node = m.currentKey node := by
  simp [currentKey, keyFor]

theorem handleDataFrame_lookup_ne {header : FrameHeader} (ext : DataExtHeader)
    (payload : List UInt8) {key : SessionKey} (hkey : key.remoteNode ≠ header.srcNode) :
    (m.handleDataFrame header ext payload).1.sessions.lookup key = m.sessions.lookup key := by
  have hne : key ≠ m.currentKey header.srcNode := by
    rintro rfl
    exact hkey rfl
  unfold handleDataFrame
  dsimp only
  split_ifs
  · rfl
  · split
    · rfl
    · split_ifs
      · rfl
      · obtain ⟨session', hsessions, -⟩ := m.acknowledge_sessions (m.currentKey header.srcNode)
          header.srcNode _ _
        rw [hsessions, AList.lookup_insert_ne hne]

theorem foldl_resendToPeer (frames : List (UInt16 × List UInt8)) :
    let m' := frames.foldl (fun m f => m.resendToPeer f.1 f.2) m
    m'.sessions = m.sessions ∧ m'.peerEpochs = m.peerEpochs ∧ m'.localNodeId = m.localNodeId := by
  induction frames generalizing m with
  | nil => exact ⟨rfl, rfl, rfl⟩
  | cons f frames ih =>
    obtain ⟨hsessions, hepochs, hnode⟩ := ih (m.resendToPeer f.1 f.2)
    have hfirst : (m.resendToPeer f.1 f.2).sessions = m.sessions ∧
        (m.resendToPeer f.1 f.2).peerEpochs = m.peerEpochs ∧
        (m.resendToPeer f.1 f.2).localNodeId = m.localNodeId := by
      unfold resendToPeer
      split
      · split <;> exact ⟨rfl, rfl, rfl⟩
      · exact ⟨rfl, rfl, rfl⟩
    exact ⟨hsessions.trans hfirst.1, hepochs.trans hfirst.2.1, hnode.trans hfirst.2.2⟩

theorem rtoTick_lookup (now : Instant) (key : SessionKey) :
    (m.rtoTick now).sessions.lookup key =
      (m.sessions.lookup key).map fun session => (session.tick now).1 := by
  rw [rtoTick, (foldl_resendToPeer _ _).1]
  exact Maps.lookup_mapValues _ _ _

@[simp] theorem rtoTick_peerEpochs (now : Instant) :
    (m.rtoTick now).peerEpochs = m.peerEpochs :=
  (foldl_resendToPeer _ _).2.1

@[simp] theorem rtoTick_localNodeId (now : Instant) :
    (m.rtoTick now).localNodeId = m.localNodeId :=
  (foldl_resendToPeer _ _).2.2

/-- After `notify_peer_down` nothing of the peer is left, and nothing else is gone. -/
theorem notifyPeerDown_lookup (nodeId : UInt16) (key : SessionKey) :
    (m.notifyPeerDown nodeId).1.sessions.lookup key =
      if key.remoteNode = nodeId then none else m.sessions.lookup key := by
  rw [notifyPeerDown, Maps.lookup_foldl_erase]
  have hkeys : key ∈ (m.sessions.entries.filter fun e => e.1.remoteNode == nodeId).keys ↔
      key.remoteNode = nodeId ∧ ∃ session, m.sessions.lookup key = some session := by
    simp only [List.keys, List.mem_map, List.mem_filter, beq_iff_eq]
    constructor
    · rintro ⟨e, ⟨hmem, hnode⟩, rfl⟩
      exact ⟨hnode, e.2, AList.mem_lookup_iff.mpr hmem⟩
    · rintro ⟨hnode, session, hlookup⟩
      exact ⟨⟨key, session⟩, ⟨AList.mem_lookup_iff.mp hlookup, hnode⟩, rfl⟩
  by_cases hnode : key.remoteNode = nodeId
  · cases hlookup : m.sessions.lookup key with
    | none => simp [hnode]
    | some session => simp [hkeys, hnode, hlookup]
  · simp [hkeys, hnode]

theorem findSession_eq_some {m : TransportManager} {remoteNode : UInt16} {key : SessionKey}
    {session : ReliableSession} (h : m.findSession remoteNode = some (key, session)) :
    m.sessions.lookup key = some session ∧ key.remoteNode = remoteNode := by
  unfold findSession at h
  split at h
  · cases h
  · obtain ⟨found, hfound, heq⟩ := Option.map_eq_some_iff.mp h
    cases heq
    exact ⟨hfound, rfl⟩

theorem readCacheGet_eq (now : Instant) (node : UInt16) (key : CacheKey) :
    (m.readCacheGet now node key).1 = m.modifySession node fun session =>
      { session with readCache := (session.readCache.get now key).1 } := by
  unfold readCacheGet modifySession
  split <;> rfl

/-! ## Changes of one session -/

/-- What an arriving frame makes of a session. -/
inductive Received (s : ReliableSession) : ReliableSession → Prop
  | taken (seq : ℕ) : Received s (s.receiveFrame seq).1
  | acknowledged (seq : ℕ) (hasGap : Bool) :
      Received s ((s.receiveFrame seq).1.buildAckPayload hasGap).1
  | acked (now : Instant) (ack : AckPayload) :
      Received s ((s.processAckForFastRetransmit ack).1.processAck now ack).1
  | credited (credits : UInt32) : Received s (s.addCredits credits)

/-- The step from `m` to `m'` keeps the epochs and changes one session at most, as `R` says. -/
structure Touches (R : ReliableSession → ReliableSession → Prop) (m m' : TransportManager) :
    Prop where
  localNodeId : m'.localNodeId = m.localNodeId
  peerEpochs : m'.peerEpochs = m.peerEpochs
  sessions : m'.sessions = m.sessions ∨ ∃ key s s', m.sessions.lookup key = some s ∧ R s s' ∧
    m'.sessions = m.sessions.insert key s'

namespace Touches

variable {m m' : TransportManager} {R R' : ReliableSession → ReliableSession → Prop}

theorem refl (m : TransportManager) : Touches R m m := ⟨rfl, rfl, Or.inl rfl⟩

theorem mono (h : Touches R m m') (hR : ∀ s s', R s s' → R' s s') : Touches R' m m' := by
  refine ⟨h.localNodeId, h.peerEpochs, h.sessions.imp id ?_⟩
  rintro ⟨key, s, s', hlookup, hs, hsessions⟩
  exact ⟨key, s, s', hlookup, hR s s' hs, hsessions⟩

theorem after (h : Touches R m m') (hR : ∀ s, R s s) {key : SessionKey} {s : ReliableSession}
    (hlookup : m.sessions.lookup key = some s) :
    ∃ s', m'.sessions.lookup key = some s' ∧ R s s' := by
  rcases h.sessions with hsame | ⟨key', s₁, s₁', hlookup₁, hs, hsessions⟩
  · rw [hsame]
    exact ⟨s, hlookup, hR s⟩
  · rw [hsessions]
    by_cases hkey : key = key'
    · subst hkey
      cases hlookup.symm.trans hlookup₁
      exact ⟨s₁', AList.lookup_insert _, hs⟩
    · rw [AList.lookup_insert_ne hkey]
      exact ⟨s, hlookup, hR s⟩

theorem before (h : Touches R m m') (hR : ∀ s, R s s) {key : SessionKey} {s' : ReliableSession}
    (hlookup : m'.sessions.lookup key = some s') :
    ∃ s, m.sessions.lookup key = some s ∧ R s s' := by
  rcases h.sessions with hsame | ⟨key', s₁, s₁', hlookup₁, hs, hsessions⟩
  · rw [hsame] at hlookup
    exact ⟨s', hlookup, hR s'⟩
  · rw [hsessions] at hlookup
    by_cases hkey : key = key'
    · subst hkey
      rw [AList.lookup_insert] at hlookup
      cases hlookup
      exact ⟨s₁, hlookup₁, hs⟩
    · rw [AList.lookup_insert_ne hkey] at hlookup
      exact ⟨s', hlookup, hR s'⟩

theorem setSession {key : SessionKey} {s s' : ReliableSession}
    (hlookup : m.sessions.lookup key = some s) (hs : R s s') : Touches R m (m.setSession key s') :=
  ⟨rfl, rfl, Or.inr ⟨key, s, s', hlookup, hs, rfl⟩⟩

theorem sendFrameToPeer (h : Touches R m m') (node : UInt16) (data : List UInt8) :
    Touches R m (m'.sendFrameToPeer node data) :=
  ⟨by simp [h.localNodeId], by simp [h.peerEpochs], by simpa using h.sessions⟩

theorem handleDataFrame (m : TransportManager) (header : FrameHeader) (ext : DataExtHeader)
    (payload : List UInt8) : Touches Received m (m.handleDataFrame header ext payload).1 := by
  unfold TransportManager.handleDataFrame
  dsimp only
  split_ifs
  · exact refl m
  · split
    · exact refl m
    · rename_i s hlookup
      split_ifs
      · exact refl m
      · obtain ⟨s', hsessions, hor⟩ := m.acknowledge_sessions
          (m.currentKey header.srcNode) header.srcNode
          (s.receiveFrame header.streamSeq.toNat).1 (s.receiveFrame header.streamSeq.toNat).2
        refine ⟨by simp, by simp, Or.inr ⟨_, s, s', hlookup, ?_, hsessions⟩⟩
        rcases hor with rfl | ⟨hasGap, rfl⟩
        · exact .taken _
        · exact .acknowledged _ hasGap

theorem handleAckFrame (m : TransportManager) (now : Instant) (header : FrameHeader)
    (payload : List UInt8) :
    Touches (fun s s' => ∃ ack, s' = ((s.processAckForFastRetransmit ack).1.processAck now ack).1)
      m (m.handleAckFrame now header payload) := by
  unfold TransportManager.handleAckFrame
  split
  · exact refl m
  · rename_i ack _
    dsimp only
    split
    · exact refl m
    · rename_i s hlookup
      split
      · exact (setSession hlookup ⟨ack, rfl⟩).sendFrameToPeer _ _
      · exact setSession hlookup ⟨ack, rfl⟩

theorem handleCreditFrame (m : TransportManager) (header : FrameHeader) (payload : List UInt8) :
    Touches (fun s s' => ∃ credits, s' = s.addCredits credits) m
      (m.handleCreditFrame header payload) := by
  unfold TransportManager.handleCreditFrame
  split
  · exact refl m
  · rename_i credit _
    dsimp only
    split
    · exact refl m
    · rename_i s hlookup
      exact setSession hlookup ⟨credit.credits, rfl⟩

theorem handleIncoming (m : TransportManager) (now : Instant) (raw : List UInt8) :
    Touches Received m (m.handleIncoming now raw).1 := by
  unfold TransportManager.handleIncoming
  split
  · exact refl m
  · split
    · split
      · exact handleDataFrame m _ _ _
      · exact refl m
    · apply (handleAckFrame m now _ _).mono
      rintro s s' ⟨ack, rfl⟩
      exact .acked now ack
    · apply (handleCreditFrame m _ _).mono
      rintro s s' ⟨credits, rfl⟩
      exact .credited credits

theorem send (m : TransportManager) (now : Instant) (node : UInt16) (frame : List UInt8)
    (isFireAndForget : Bool) (opaqueId : UInt64) :
    Touches (fun s s' => s.state = .active ∧ ∃ paid, s.consumeCredit = .ok paid ∧
        s' = (paid.assignSeq now frame isFireAndForget opaqueId).1)
      m (m.send now node frame isFireAndForget opaqueId).1 := by
  unfold TransportManager.send
  split
  · exact refl m
  · dsimp only
    split
    · exact refl m
    · rename_i s hlookup
      split_ifs with hactive
      · exact refl m
      · split
        · exact refl m
        · rename_i paid hcredit
          have hset := setSession hlookup (R := fun s s' => s.state = .active ∧
            ∃ paid, s.consumeCredit = .ok paid ∧
              s' = (paid.assignSeq now frame isFireAndForget opaqueId).1)
            ⟨not_ne_iff.mp hactive, paid, hcredit, rfl⟩
          split
          · exact hset
          · split
            · exact hset
            · exact ⟨hset.localNodeId, hset.peerEpochs, hset.sessions⟩

theorem modifySession (m : TransportManager) (node : UInt16) {f : ReliableSession → ReliableSession}
    (hf : ∀ s, R s (f s)) : Touches R m (m.modifySession node f) := by
  unfold TransportManager.modifySession
  split
  · rename_i key s hfind
    exact setSession (findSession_eq_some hfind).1 (hf s)
  · exact refl m

end Touches
end TransportManager
end UniBus.Transport
