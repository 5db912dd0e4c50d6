import UniBus.Control.Message
import UniBus.Core.MemoryRegion

/-!
# The control plane

The member table, the handling of control messages and the heartbeat loop. What
a message makes the node send back on its connection and what it tells the data
plane are returned in the order of the sends. Clock readings of this layer are
milliseconds.
-/
namespace UniBus.Control

/-- The sending half of a connection. -/
abbrev PeerTx := ℕ

structure NodeInfo where
  nodeId : UInt16
  state : NodeState
  controlAddr : String
  dataAddr : String
  epoch : UInt32
  initialCredits : UInt32
  lastSeen : Option ℕ
  tx : Option PeerTx
  deriving DecidableEq, Repr

structure MemberTable where
  localNodeId : UInt16
  nodes : List NodeInfo
  deriving DecidableEq, Repr

namespace MemberTable

def new (localNodeId : UInt16) : MemberTable := ⟨localNodeId, []⟩

variable (t : MemberTable)

def find (nodeId : UInt16) : Option NodeInfo := t.nodes.find? fun n => n.nodeId == nodeId

/-- Changes the first entry of a node, if there is one. -/
def modify (nodeId : UInt16) (f : NodeInfo → NodeInfo) : MemberTable :=
  { t with nodes := t.nodes.modify (t.nodes.findIdx fun n => n.nodeId == nodeId) f }

/-- Adds or replaces an entry; the time a known node was last seen stays. -/
def upsert (info : NodeInfo) : MemberTable :=
  if t.nodes.any fun n => n.nodeId == info.nodeId then
    t.modify info.nodeId fun n => { info with lastSeen := n.lastSeen }
  else { t with nodes := t.nodes ++ [info] }

def markDown (nodeId : UInt16) : MemberTable :=
  t.modify nodeId fun n => { n with state := .down }

def markSuspect (nodeId : UInt16) : MemberTable :=
  t.modify nodeId fun n => if n.state = .active then { n with state := .suspect } else n

def markActive (nodeId : UInt16) : MemberTable :=
  t.modify nodeId fun n => { n with state := .active }

def updateLastSeen (nodeId : UInt16) (ts : ℕ) : MemberTable :=
  t.modify nodeId fun n => { n with lastSeen := some ts }

def getPeerTx (nodeId : UInt16) : Option PeerTx := (t.find nodeId).bind fun n => n.tx

def list : List NodeInfo := t.nodes.map fun n => { n with tx := none }

def get (nodeId : UInt16) : Option NodeInfo := (t.find nodeId).map fun n => { n with tx := none }

def activePeerSenders : List (UInt16 × PeerTx) :=
  (t.nodes.filter fun n => n.nodeId != t.localNodeId && n.state != .down).filterMap fun n =>
    n.tx.map fun tx => (n.nodeId, tx)

end MemberTable

/-- The part of the node configuration that this layer reads. -/
structure PlaneConfig where
  nodeId : UInt16
  dataListen : String
  initialCredits : UInt32
  heartbeatIntervalMs : ℕ
  failAfter : UInt32
  deriving DecidableEq, Repr

/-- The time after which a node that was last seen at `lastSeen` has missed its heartbeats;
the program computes it in 64 bits. -/
def PlaneConfig.missedAfter (config : PlaneConfig) (lastSeen : ℕ) : ℕ :=
  (lastSeen + config.heartbeatIntervalMs * config.failAfter.toNat) % 2 ^ 64

structure Plane where
  config : PlaneConfig
  localEpoch : UInt32
  members : MemberTable
  mrCache : MrCacheTable
  mrTable : Option MrTable
  memory : Memory
  /-- The heartbeat loop's count of missed heartbeats by node. -/
  missedCount : AList (fun _ : UInt16 => UInt32)

/-- What handling a message or a tick sends: messages to peers, and events. -/
structure Sends where
  replies : List ControlMsg
  events : List PeerChangeEvent
  deriving DecidableEq, Repr

namespace Plane

def new (config : PlaneConfig) (localEpoch : UInt32) (mrTable : Option MrTable)
    (memory : Memory) : Plane :=
  ⟨config, localEpoch, .new config.nodeId, .new, mrTable, memory, ∅⟩

variable (p : Plane)

/-- All local regions, as they are published to a peer that connects. -/
def sendExistingMrs : List ControlMsg :=
  match p.mrTable with
  | none => []
  | some t => t.entries.entries.map fun e =>
    .mrPublish ⟨e.2.baseUbAddr.nodeId, e.2.handle, e.2.baseUbAddr, e.2.len, e.2.perms,
      (p.memory e.2.device).kind⟩

def stateByte : NodeState → UInt8
  | .joining => 0
  | .active => 1
  | .suspect => 2
  | .leaving => 3
  | .down => 4

def stateOfByte (b : UInt8) : NodeState :=
  if b = 0 then .joining
  else if b = 1 then .active
  else if b = 2 then .suspect
  else if b = 3 then .leaving
  else .down

/-- What HELLO and HELLO_ACK have in common: the peer becomes an active member. -/
def greet (peerTx : PeerTx) (now : ℕ) (hello : HelloPayload) : Plane :=
  { p with
    members := p.members.upsert
      { nodeId := hello.nodeId, state := .active, controlAddr := "", dataAddr := hello.dataAddr
        epoch := hello.localEpoch, initialCredits := hello.initialCredits
        lastSeen := some now, tx := some peerTx } }

/-- One node of a snapshot. The own entry is not overwritten. -/
def learn (now : ℕ) (node : SnapshotNodeInfo) : Plane :=
  if node.nodeId = p.config.nodeId then p
  else
    { p with
      members := p.members.upsert
        { nodeId := node.nodeId, state := stateOfByte node.state
          controlAddr := node.controlAddr, dataAddr := node.dataAddr, epoch := node.epoch
          initialCredits := 0, lastSeen := some now, tx := none } }

def processControlMessage (peerTx : PeerTx) (now : ℕ) : ControlMsg → Plane × Sends
  | .hello hello =>
    let p := p.greet peerTx now hello
    let ack : ControlMsg := .helloAck
      ⟨p.config.nodeId, 1, p.localEpoch, p.config.initialCredits, p.config.dataListen⟩
    (p, ⟨ack :: p.sendExistingMrs, [.joined hello.nodeId hello.localEpoch]⟩)
  | .helloAck hello =>
    let p := p.greet peerTx now hello
    (p, ⟨p.sendExistingMrs, [.joined hello.nodeId hello.localEpoch]⟩)
  | .heartbeat hb =>
    ({ p with members := p.members.updateLastSeen hb.nodeId now },
      ⟨[.heartbeatAck ⟨p.config.nodeId, hb.timestamp⟩], []⟩)
  | .heartbeatAck hb =>
    ({ p with members := p.members.updateLastSeen hb.nodeId now }, ⟨[], []⟩)
  | .memberDown md =>
    let p := { p with members := p.members.markDown md.nodeId }
    let epoch := ((p.members.get md.nodeId).map fun n => n.epoch).getD 0
    (p, ⟨[], [.down md.nodeId epoch]⟩)
  | .mrPublish mr =>
    let entry : MrCacheEntry :=
      ⟨mr.mrHandle, mr.ownerNode, mr.baseUbAddr, mr.len, mr.perms, mr.deviceKind⟩
    ({ p with mrCache := p.mrCache.insert entry }, ⟨[], []⟩)
  | .mrRevoke revoke =>
    ({ p with mrCache := p.mrCache.remove revoke.ownerNode revoke.mrHandle }, ⟨[], []⟩)
  | .join join =>
    let p := { p with
      members := p.members.upsert
        { nodeId := join.nodeId, state := .active, controlAddr := join.controlAddr
          dataAddr := join.dataAddr, epoch := join.epoch, initialCredits := join.initialCredits
          lastSeen := some now, tx := some peerTx } }
    let snapshot : ControlMsg := .memberSnapshot ⟨p.members.list.map fun n =>
      ⟨n.nodeId, stateByte n.state, n.dataAddr, n.controlAddr, n.epoch⟩⟩
    (p, ⟨snapshot :: p.sendExistingMrs, [.joined join.nodeId join.epoch]⟩)
  | .memberSnapshot snapshot =>
    (snapshot.nodes.foldl (fun p node => p.learn now node) p,
      ⟨[], (snapshot.nodes.filter fun node => node.nodeId ≠ p.config.nodeId).map fun node =>
        .joined node.nodeId node.epoch⟩)
  | _ => (p, ⟨[], []⟩)

/-- One node in a round of the heartbeat loop; `node` is its entry at the start of
the round. -/
def checkHeartbeat (now : ℕ) (node : NodeInfo) : Plane × List PeerChangeEvent :=
  if node.nodeId = p.members.localNodeId ∨ node.state = .down then (p, [])
  else
    match node.lastSeen with
    | none => (p, [])
    | some lastSeen =>
      if now > p.config.missedAfter lastSeen then
        let count := (p.missedCount.lookup node.nodeId).getD 0 + 1
        let p := { p with missedCount := p.missedCount.insert node.nodeId count }
        if count ≥ p.config.failAfter then
          let (p, suspected) : Plane × List PeerChangeEvent :=
            if node.state = .active then
              ({ p with members := p.members.markSuspect node.nodeId }, [.suspect node.nodeId])
            else (p, [])
          if count ≥ p.config.failAfter * 2 then
            ({ p with members := p.members.markDown node.nodeId },
              suspected ++ [.down node.nodeId node.epoch])
          else (p, suspected)
        else (p, [])
      else if node.nodeId ∈ p.missedCount then
        let p := { p with missedCount := p.missedCount.erase node.nodeId }
        if node.state = .suspect then
          ({ p with members := p.members.markActive node.nodeId }, [.recovered node.nodeId])
        else (p, [])
      else (p, [])

/-- The check of all nodes in a round. -/
def checkHeartbeats (now : ℕ) : List NodeInfo → Plane → Plane × List PeerChangeEvent
  | [], p => (p, [])
  | node :: nodes, p =>
    let (p, events) := p.checkHeartbeat now node
    let (p, rest) := checkHeartbeats now nodes p
    (p, events ++ rest)

/-- One round of the heartbeat loop, with the heartbeats it sends to peers. -/
def heartbeatTick (now : ℕ) : Plane × List (UInt16 × PeerTx × ControlMsg) × List PeerChangeEvent :=
  let heartbeat : ControlMsg := .heartbeat ⟨p.members.localNodeId, UInt64.ofNat now⟩
  let beats := p.members.activePeerSenders.map fun peer => (peer.1, peer.2, heartbeat)
  let (p, events) := checkHeartbeats now p.members.list p
  (p, beats, events)

end Plane
end UniBus.Control
