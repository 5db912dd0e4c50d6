import UniBus.Control.Membership
import UniBus.Foundations.Updates

/-!
# Publication of memory regions

The owner of regions tells its peers about them on two paths. A registration or a
deregistration sends an event, and one task drains the events to the peers that
are active at that moment; a peer that connects is sent all regions that are listed
at that moment. Both paths end in the channel of the connection, which delivers in
order. The steps of all operations and tasks interleave.
-/
namespace UniBus

/-! ## Registration and deregistration in steps -/

namespace MrTable

variable (t : MrTable)

def allocate (mem : Memory) (device : DeviceRef) (len : UInt64) : MrTable × UInt64 :=
  let deviceId := (mem device).deviceId
  let next := (t.offsetAllocators.lookup deviceId).getD 0
  let (offset, next) := allocOffset next len 8
  ({ t with offsetAllocators := t.offsetAllocators.insert deviceId next }, offset)

theorem offset_registered (mem : Memory) (device : DeviceRef) (offset : UInt64) :
    (UbAddr.new t.podId t.nodeId (mem device).deviceId offset 0).offset = offset :=
  UbAddr.offset_new _ _ _ _ _

/-- The handle of a registration and with it the entry, which is not listed yet. -/
def takeHandle (mem : Memory) (device : DeviceRef) (offset len : UInt64) (perms : MrPerms) :
    MrTable × MrEntry :=
  let handle := t.nextHandle
  let baseUbAddr := UbAddr.new t.podId t.nodeId (mem device).deviceId offset 0
  ({ t with nextHandle := handle + 1 },
    ⟨handle, device, offset, len, perms, baseUbAddr, t.offset_registered mem device offset⟩)

def insertEntry (e : MrEntry) : MrTable :=
  { t with
    entries := t.entries.insert e.handle e
    cells := Function.update t.cells e.handle ⟨.active, 0⟩ }

def setState (handle : UInt32) (state : MrState) : MrTable :=
  { t with cells := Function.update t.cells handle { t.cells handle with state } }

def removeEntry (handle : UInt32) : MrTable := { t with entries := t.entries.erase handle }

section Fields
variable (mem : Memory) (device : DeviceRef) (offset len : UInt64) (perms : MrPerms)

@[simp] theorem entries_takeHandle :
    (t.takeHandle mem device offset len perms).1.entries = t.entries := rfl

@[simp] theorem cells_takeHandle :
    (t.takeHandle mem device offset len perms).1.cells = t.cells := rfl

@[simp] theorem entries_setState (handle : UInt32) (state : MrState) :
    (t.setState handle state).entries = t.entries := rfl

@[simp] theorem cells_removeEntry (handle : UInt32) : (t.removeEntry handle).cells = t.cells := rfl

end Fields

theorem register_eq (mem : Memory) (device : DeviceRef) (len : UInt64) (perms : MrPerms) :
    t.register mem device len perms =
      if len = 0 then .error .addrInvalid
      else
        let allocated := t.allocate mem device len
        let taken := allocated.1.takeHandle mem device allocated.2 len perms
        .ok (taken.1.insertEntry taken.2, taken.2.baseUbAddr, taken.2.handle) := by
  unfold register
  split_ifs <;> rfl

theorem deregister_eq {handle : UInt32} {e : MrEntry} (h : t.entries.lookup handle = some e)
    (hactive : (t.cells handle).state = .active) :
    t.deregister handle = .ok ((t.setState handle .revoking).removeEntry handle) := by
  simp [deregister, h, hactive, setState, removeEntry]

end MrTable

/-- What the control plane is told about a new region. -/
structure MrPublishInfo where
  mrHandle : UInt32
  ownerNode : UInt16
  baseUbAddr : UbAddr
  len : UInt64
  perms : MrPerms
  deviceKind : DeviceKind
  deriving DecidableEq, Repr

inductive MrPublishEvent
  | publish (info : MrPublishInfo)
  | revoke (ownerNode : UInt16) (mrHandle : UInt32)
  deriving DecidableEq, Repr

namespace Control

open Updates

/-- The message the drain loop makes of an event. -/
def eventMessage : MrPublishEvent → ControlMsg
  | .publish info =>
    .mrPublish ⟨info.ownerNode, info.mrHandle, info.baseUbAddr, info.len, info.perms,
      info.deviceKind⟩
  | .revoke ownerNode mrHandle => .mrRevoke ⟨ownerNode, mrHandle⟩

/-- A region of the owner as its peers cache it. -/
def cacheEntry (mem : Memory) (ownerNode : UInt16) (e : MrEntry) : MrCacheEntry :=
  ⟨e.handle, ownerNode, e.baseUbAddr, e.len, e.perms, (mem e.device).kind⟩

/-- What a message does to the cache of remote regions. -/
def receive (cache : MrCacheTable) : ControlMsg → MrCacheTable
  | .mrPublish mr =>
    cache.insert ⟨mr.mrHandle, mr.ownerNode, mr.baseUbAddr, mr.len, mr.perms, mr.deviceKind⟩
  | .mrRevoke revoke => cache.remove revoke.ownerNode revoke.mrHandle
  | _ => cache

theorem mrCache_processControlMessage (p : Plane) (peerTx : PeerTx) (now : ℕ) (msg : ControlMsg) :
    (p.processControlMessage peerTx now msg).1.mrCache = receive p.mrCache msg := by
  cases msg with
  | memberSnapshot snapshot =>
    simp only [Plane.processControlMessage, receive]
    induction snapshot.nodes generalizing p with
    | nil => rfl
    | cons node nodes ih =>
      rw [List.foldl_cons, ih, Plane.learn]
      split_ifs <;> rfl
  | _ => rfl

/-! ## Connecting peers -/

/-- The messages that make a peer known; the peer puts its own node id into them. -/
inductive Greeting
  | hello (payload : HelloPayload)
  | helloAck (payload : HelloPayload)
  | join (payload : JoinPayload)
  deriving DecidableEq

namespace Greeting

def message (nodeId : UInt16) : Greeting → ControlMsg
  | hello payload => .hello { payload with nodeId }
  | helloAck payload => .helloAck { payload with nodeId }
  | join payload => .join { payload with nodeId }

def reply (p : Plane) : Greeting → List ControlMsg
  | hello _ =>
    [.helloAck ⟨p.config.nodeId, 1, p.localEpoch, p.config.initialCredits, p.config.dataListen⟩]
  | helloAck _ => []
  | join _ =>
    [.memberSnapshot ⟨p.members.list.map fun n =>
      ⟨n.nodeId, Plane.stateByte n.state, n.dataAddr, n.controlAddr, n.epoch⟩⟩]

end Greeting

/-- The answer to a greeting is its reply and then all regions. -/
theorem replies_greeting (p : Plane) (peerTx : PeerTx) (now : ℕ) (nodeId : UInt16)
    (greeting : Greeting) :
    let out := p.processControlMessage peerTx now (greeting.message nodeId)
    out.2.replies = greeting.reply out.1 ++ out.1.sendExistingMrs := by
  cases greeting <;> rfl

/-! ## Messages as updates -/

/-- What a message changes about the regions of an owner. -/
def updateOf (ownerNode : UInt16) : ControlMsg → Option (Update UInt32 MrCacheEntry)
  | .mrPublish mr =>
    if mr.ownerNode = ownerNode then
      some (.set mr.mrHandle
        ⟨mr.mrHandle, mr.ownerNode, mr.baseUbAddr, mr.len, mr.perms, mr.deviceKind⟩)
    else none
  | .mrRevoke revoke =>
    if revoke.ownerNode = ownerNode then some (.unset revoke.mrHandle) else none
  | _ => none

def updates (ownerNode : UInt16) (msgs : List ControlMsg) : List (Update UInt32 MrCacheEntry) :=
  msgs.filterMap (updateOf ownerNode)

section Updates
variable {ownerNode : UInt16}

@[simp] theorem updates_nil : updates ownerNode [] = [] := rfl

theorem updates_cons (msg : ControlMsg) (msgs : List ControlMsg) :
    updates ownerNode (msg :: msgs) =
      (updateOf ownerNode msg).toList ++ updates ownerNode msgs := by
  rw [updates, List.filterMap_cons]
  cases updateOf ownerNode msg <;> rfl

theorem updates_append (msgs msgs' : List ControlMsg) :
    updates ownerNode (msgs ++ msgs') = updates ownerNode msgs ++ updates ownerNode msgs' :=
  List.filterMap_append

theorem updates_reply (p : Plane) (greeting : Greeting) :
    updates ownerNode (greeting.reply p) = [] := by
  cases greeting <;> rfl

theorem lookup_receive (cache : MrCacheTable) (msg : ControlMsg) (handle : UInt32) :
    (receive cache msg).entries.lookup (ownerNode, handle) =
      effect handle (updateOf ownerNode msg).toList (cache.entries.lookup (ownerNode, handle)) := by
  cases msg with
  | mrPublish mr =>
    simp only [receive, MrCacheTable.insert, updateOf]
    by_cases howner : mr.ownerNode = ownerNode
    · by_cases hhandle : mr.mrHandle = handle
      · simp [howner, hhandle, effect, Update.key, Update.value]
      · have hne : (ownerNode, handle) ≠ (ownerNode, mr.mrHandle) := by simp [Ne.symm hhandle]
        simp [howner, hhandle, effect, Update.key, AList.lookup_insert_ne hne]
    · have hne : (ownerNode, handle) ≠ (mr.ownerNode, mr.mrHandle) := by simp [Ne.symm howner]
      simp [howner, AList.lookup_insert_ne hne]
  | mrRevoke revoke =>
    simp only [receive, MrCacheTable.remove, updateOf]
    by_cases howner : revoke.ownerNode = ownerNode
    · by_cases hhandle : revoke.mrHandle = handle
      · simp [howner, hhandle, effect, Update.key, Update.value]
      · have hne : (ownerNode, handle) ≠ (ownerNode, revoke.mrHandle) := by simp [Ne.symm hhandle]
        simp [howner, hhandle, effect, Update.key, AList.lookup_erase_ne hne]
    · have hne : (ownerNode, handle) ≠ (revoke.ownerNode, revoke.mrHandle) := by
        simp [Ne.symm howner]
      simp [howner, AList.lookup_erase_ne hne]
  | _ => rfl

end Updates

/-! ## Operations of the owner -/

/-- Where a registration or a deregistration stands. -/
inductive MrOperation
  | idle
  | allocated (device : DeviceRef) (offset len : UInt64) (perms : MrPerms)
  | reserved (e : MrEntry)
  /-- Listed, and the Publish event not yet sent. -/
  | inserted (e : MrEntry)
  | found (handle : UInt32)
  /-- Revoking, and the Revoke event not yet sent. -/
  | revoked (handle : UInt32)
  /-- Waiting for the operations in flight. -/
  | waiting (handle : UInt32)
  | removing (handle : UInt32)
  deriving DecidableEq

/-- The region that an operation has revoked and not yet removed. -/
def MrOperation.leaving : MrOperation → Option UInt32
  | revoked handle | waiting handle | removing handle => some handle
  | _ => none

/-- The region that an operation has still to send an event about. -/
def MrOperation.unsent : MrOperation → Option UInt32
  | inserted e => some e.handle
  | revoked handle => some handle
  | _ => none

inductive OwnerCall
  | register (device : DeviceRef) (len : UInt64) (perms : MrPerms)
  | deregister (handle : UInt32)
  | deregisterAsync (handle : UInt32)
  /-- The next step of the operation that is running. -/
  | proceed

/-- The region table with the operations that run on it. -/
structure Owner where
  table : MrTable
  operation : ℕ → MrOperation

namespace Owner

variable (o : Owner)

def publishInfo (mem : Memory) (e : MrEntry) : MrPublishInfo :=
  ⟨e.handle, o.table.nodeId, e.baseUbAddr, e.len, e.perms, (mem e.device).kind⟩

/-- An operation changes the table and gets on. -/
def proceed (op : ℕ) (table : MrTable) (operation : MrOperation) : Owner :=
  ⟨table, Function.update o.operation op operation⟩

/-- An operation begins. `deregister` revokes the entry and sends its event under
the lock of the entry, so that nothing sees a moment between the two. -/
def begin (mem : Memory) (op : ℕ) : OwnerCall → Owner × Option MrPublishEvent
  | .register device len perms =>
    if len = 0 then (o, none)
    else
      let (table, offset) := o.table.allocate mem device len
      (o.proceed op table (.allocated device offset len perms), none)
  | .deregister handle =>
    if (o.table.entries.lookup handle).isSome ∧ (o.table.cells handle).state = .active then
      (o.proceed op (o.table.setState handle .revoking) (.removing handle),
        some (.revoke o.table.nodeId handle))
    else (o, none)
  | .deregisterAsync handle =>
    if (o.table.entries.lookup handle).isSome then (o.proceed op o.table (.found handle), none)
    else (o, none)
  | .proceed => (o, none)

def next (mem : Memory) (op : ℕ) : Owner × Option MrPublishEvent :=
  match o.operation op with
  | .idle => (o, none)
  | .allocated device offset len perms =>
    let (table, e) := o.table.takeHandle mem device offset len perms
    (o.proceed op table (.reserved e), none)
  | .reserved e => (o.proceed op (o.table.insertEntry e) (.inserted e), none)
  | .inserted e => (o.proceed op o.table .idle, some (.publish (o.publishInfo mem e)))
  | .found handle =>
    if (o.table.cells handle).state = .active then
      (o.proceed op (o.table.setState handle .revoking) (.revoked handle), none)
    else (o.proceed op o.table .idle, none)
  | .revoked handle =>
    (o.proceed op o.table (.waiting handle), some (.revoke o.table.nodeId handle))
  -- the wait ends, in time or not
  | .waiting handle =>
    (o.proceed op (o.table.setState handle .released) (.removing handle), none)
  | .removing handle => (o.proceed op (o.table.removeEntry handle) .idle, none)

/-- One step of an operation and the event it sends. -/
def step (mem : Memory) (op : ℕ) : OwnerCall → Owner × Option MrPublishEvent
  | .proceed => o.next mem op
  | call => if o.operation op = .idle then o.begin mem op call else (o, none)

/-- A registration that runs alone is `MrTable.register`, and tells of it. -/
theorem register_alone (mem : Memory) {op : ℕ} (hidle : o.operation op = .idle)
    (device : DeviceRef) {len : UInt64} (perms : MrPerms) (hlen : len ≠ 0) :
    let allocated := (o.step mem op (.register device len perms)).1
    let reserved := (allocated.step mem op .proceed).1
    let inserted := (reserved.step mem op .proceed).1
    ∃ e, o.table.register mem device len perms =
        .ok (inserted.table, e.baseUbAddr, e.handle) ∧
      inserted.step mem op .proceed =
        (inserted.proceed op inserted.table .idle, some (.publish (o.publishInfo mem e))) := by
  refine ⟨((o.table.allocate mem device len).1.takeHandle mem device
    (o.table.allocate mem device len).2 len perms).2, ?_, ?_⟩
  · rw [MrTable.register_eq, if_neg hlen]
    simp [step, begin, hidle, hlen, next, proceed]
  · simp [step, begin, hidle, hlen, next, proceed, publishInfo, MrTable.allocate,
      MrTable.takeHandle, MrTable.insertEntry]

/-- A deregistration that runs alone is `MrTable.deregister`, and tells of it. -/
theorem deregister_alone (mem : Memory) {op : ℕ} (hidle : o.operation op = .idle)
    {handle : UInt32} {e : MrEntry} (hlisted : o.table.entries.lookup handle = some e)
    (hactive : (o.table.cells handle).state = .active) :
    let revoked := o.step mem op (.deregister handle)
    revoked.2 = some (.revoke o.table.nodeId handle) ∧
      o.table.deregister handle = .ok (revoked.1.step mem op .proceed).1.table := by
  rw [o.table.deregister_eq hlisted hactive]
  simp [step, begin, hidle, hlisted, hactive, next, proceed]

end Owner

/-! ## The owner, its connections and its peers -/

/-- Where the drain loop stands. -/
inductive Drain
  | idle
  | received (event : MrPublishEvent)
  /-- The peers that are still to be sent the event. -/
  | sending (event : MrPublishEvent) (peers : List (UInt16 × PeerTx))
  deriving DecidableEq

namespace Drain

def event : Drain → List MrPublishEvent
  | idle => []
  | received event | sending event _ => [event]

/-- What the drain loop still has to send on a connection, as far as it has read the
list of peers. -/
def owed (tx : PeerTx) : Drain → List MrPublishEvent
  | idle => []
  | received event => [event]
  | sending event peers => List.replicate (peers.countP fun peer => peer.2 == tx) event

end Drain

/-- Where the task of a connection stands. -/
inductive Connection
  | new
  /-- The peer is a member; the reply is still to be sent. -/
  | greeted (reply : List ControlMsg)
  /-- The regions that are still to be sent. -/
  | listing (rest : List ControlMsg)
  deriving DecidableEq

namespace Connection

/-- The messages that the task of a connection is about to send. -/
def pending : Connection → List ControlMsg
  | new => []
  | greeted reply => reply
  | listing rest => rest

def isListing : Connection → Bool
  | listing _ => true
  | _ => false

end Connection

structure MrSync where
  base : Plane
  owner : Owner
  events : List MrPublishEvent
  drain : Drain
  connection : PeerTx → Connection
  channel : PeerTx → List ControlMsg
  caches : UInt16 → MrCacheTable

inductive SyncInput
  | operate (op : ℕ) (call : OwnerCall)
  /-- The next step of the drain loop. -/
  | drain
  | greet (tx : PeerTx) (now : ℕ) (greeting : Greeting)
  /-- The next step of a connection after a greeting. -/
  | connect (tx : PeerTx)
  | deliver (tx : PeerTx)

namespace MrSync

def start (config : PlaneConfig) (localEpoch : UInt32) (podId : UInt16) (memory : Memory)
    (now : ℕ) (controlListen : String) : MrSync where
  base := (Plane.new config localEpoch none memory).registerSelf now controlListen
  owner := ⟨.new podId config.nodeId, fun _ => .idle⟩
  events := []
  drain := .idle
  connection := fun _ => .new
  channel := fun _ => []
  caches := fun _ => .new

variable (s : MrSync)

def nodeId : UInt16 := s.owner.table.nodeId

/-- The owner's control plane, which refers to its region table. -/
def plane : Plane := { s.base with mrTable := some s.owner.table }

def operate (op : ℕ) (call : OwnerCall) : MrSync :=
  { s with
    owner := (s.owner.step s.base.memory op call).1
    events := s.events ++ (s.owner.step s.base.memory op call).2.toList }

def push (tx : PeerTx) (msg : ControlMsg) : MrSync :=
  { s with channel := Function.update s.channel tx (s.channel tx ++ [msg]) }

def setConnection (tx : PeerTx) (connection : Connection) : MrSync :=
  { s with connection := Function.update s.connection tx connection }

def drainStep : MrSync :=
  match s.drain with
  | .idle =>
    match s.events with
    | [] => s
    | event :: events => { s with events, drain := .received event }
  | .received event => { s with drain := .sending event s.base.members.activePeerSenders }
  | .sending _ [] => { s with drain := .idle }
  | .sending event (peer :: peers) =>
    { s with drain := .sending event peers }.push peer.2 (eventMessage event)

/-- A greeting is processed when the one before it is done. -/
def greet (remote : PeerTx → UInt16) (tx : PeerTx) (now : ℕ) (greeting : Greeting) : MrSync :=
  if s.connection tx = .new ∨ s.connection tx = .listing [] then
    let base := (s.plane.processControlMessage tx now (greeting.message (remote tx))).1
    { s with base }.setConnection tx (.greeted (greeting.reply base))
  else s

/-- Sends the rest of the reply, then takes the list of regions and sends it. -/
def connect (tx : PeerTx) : MrSync :=
  match s.connection tx with
  | .new => s
  | .greeted [] => s.setConnection tx (.listing s.plane.sendExistingMrs)
  | .greeted (msg :: reply) => (s.setConnection tx (.greeted reply)).push tx msg
  | .listing [] => s
  | .listing (msg :: rest) => (s.setConnection tx (.listing rest)).push tx msg

def deliver (remote : PeerTx → UInt16) (tx : PeerTx) : MrSync × List (PeerTx × ControlMsg) :=
  match s.channel tx with
  | [] => (s, [])
  | msg :: rest =>
    ({ s with
        channel := Function.update s.channel tx rest
        caches := Function.update s.caches (remote tx) (receive (s.caches (remote tx)) msg) },
      [(tx, msg)])

/-- One step; the log records what is delivered. `remote` is the node at the other
end of a connection. -/
def step (remote : PeerTx → UInt16) (s : MrSync) :
    SyncInput → MrSync × List (PeerTx × ControlMsg)
  | .operate op call => (s.operate op call, [])
  | .drain => (s.drainStep, [])
  | .greet tx now greeting => (s.greet remote tx now greeting, [])
  | .connect tx => (s.connect tx, [])
  | .deliver tx => s.deliver remote tx

/-- Nothing is running and nothing is on its way. -/
structure Quiet : Prop where
  operations : ∀ op, s.owner.operation op = .idle
  events : s.events = []
  drain : s.drain = .idle
  connections : ∀ tx, s.connection tx = .new ∨ s.connection tx = .listing []
  channels : ∀ tx, s.channel tx = []

/-- What the cache of a peer says about a region of the owner. -/
def cached (n : UInt16) (handle : UInt32) : Option MrCacheEntry :=
  (s.caches n).entries.lookup (s.nodeId, handle)

/-- Every connected peer knows exactly the regions in the owner's table. -/
def Converged : Prop :=
  ∀ n tx, s.base.members.getPeerTx n = some tx → ∀ handle,
    s.cached n handle =
      (s.owner.table.entries.lookup handle).map (cacheEntry s.base.memory s.nodeId)

end MrSync
end Control
end UniBus
