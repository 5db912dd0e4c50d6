import UniBus.DataPlane.Correlation
import UniBus.Foundations.Threads
import UniBus.Transport.Requests

/-!
# Remote calls on a shared engine

Each call of `ub_read_remote`, `ub_atomic_cas_remote` or `ub_atomic_faa_remote` runs in a
task of its own: it takes an identifier, stores the sending end of a channel under it in
the pending table, sends its request and waits. Arriving frames, the retransmission
task, disconnects and the other calls come in between.
-/
namespace UniBus.DataPlane

open Wire Transport

/-! ## The parts of a call -/

def statusToError (status : UbStatus) : UbError :=
  match status.toNat with
  | 1 => .addrInvalid
  | 2 => .permDenied
  | 3 => .alignment
  | 4 => .linkDown
  | 5 => .noResources
  | 6 => .timeout
  | 7 => .payloadTooLarge
  | 8 => .flushed
  | status => .internal ("unknown status: " ++ toString status)

/-- What a remote call returns: the bytes read, or the value before the update. -/
inductive CallValue
  | data (bytes : List UInt8)
  | oldValue (value : UInt64)
  deriving DecidableEq, Repr

namespace RemoteCall

def payload : RemoteCall → List UInt8
  | ubReadRemote _ len => BigEndian.put 4 len.toNat
  | ubAtomicCasRemote _ expect new => BigEndian.put 8 expect.toNat ++ BigEndian.put 8 new.toNat
  | ubAtomicFaaRemote _ add => BigEndian.put 8 add.toNat

/-- The old value at the front of the response to an atomic verb. -/
def oldValue (data : List UInt8) (tooShort : String) : Except UbError CallValue :=
  if data.length ≥ 8 then .ok (.oldValue (UInt64.ofNat (BigEndian.get (data.take 8))))
  else .error (.internal tooShort)

/-- The result of a call that has received a response. -/
def finish (response : VerbResponse) (call : RemoteCall) : Except UbError CallValue :=
  if response.status ≠ 0 then .error (statusToError response.status)
  else
    match call with
    | ubReadRemote .. => .ok (.data response.data)
    | ubAtomicCasRemote .. => oldValue response.data "atomic CAS response too short"
    | ubAtomicFaaRemote .. => oldValue response.data "atomic FAA response too short"

end RemoteCall

/-- Where a call stands. -/
inductive CallPhase
  | idle
  /-- It has its identifier. -/
  | begun (call : RemoteCall) (entry : MrCacheEntry) (opaqueId : UInt64)
  /-- Its channel is in the pending table. -/
  | registered (call : RemoteCall) (entry : MrCacheEntry) (opaqueId : UInt64)
  | waiting (call : RemoteCall) (opaqueId : UInt64)
  | returned (result : Except UbError CallValue)

/-- The engine with the channels of its calls. -/
structure Exchange (ι : Type) where
  engine : DataPlaneEngine
  /-- The call whose channel was stored under an identifier last. -/
  owner : UInt64 → Option ι
  /-- What was sent on the channel of a call. -/
  reply : ι → Option VerbResponse

/-- What the other tasks of a node do to its engine, one step each. -/
inductive EngineTask
  | handleVerbFrame (now : Instant) (f : InboundFrame)
  | disconnectPeer (nodeId : UInt16)
  | operate (op : TransportManager.Operation)
  | handleIncoming (now : Instant) (raw : List UInt8)
  /-- A fire-and-forget frame goes out. -/
  | post (now : Instant) (nodeId : UInt16) (frame : List UInt8) (opaqueId : UInt64)
  | grantCredits (nodeId : UInt16) (count : UInt32)
  /-- The channel to a peer is replaced, or its write loop has taken frames from it. -/
  | registerPeerSender (nodeId : UInt16) (sender : Sender)
  | removePeerSender (nodeId : UInt16)
  /-- Regions, Jettys or the cache of remote regions change. -/
  | refresh (host : Host) (mrCache : MrCacheTable)

inductive CallInput (ι : Type)
  | begin (i : ι) (call : RemoteCall)
  | register (i : ι)
  | send (i : ι) (now : Instant)
  | receive (i : ι)
  | giveUp (i : ι)
  | task (t : EngineTask)

inductive CallEvent (ι : Type)
  | returned (i : ι) (opaqueId : Option UInt64) (result : Except UbError CallValue)
  | completed (completion : Completion)
  /-- A response frame from the peer was processed. -/
  | answered (opaqueId : UInt64) (peer : UInt16)
  deriving DecidableEq

abbrev RemoteCalls (ι : Type) := Threads.Pool ι (Exchange ι) CallPhase

namespace Exchange

variable {ι : Type} [DecidableEq ι] (x : Exchange ι) (i : ι)

/-- The address is looked up and an identifier taken. -/
def begin (call : RemoteCall) : CallPhase → Exchange ι × CallPhase × List (CallEvent ι)
  | .idle =>
    match x.engine.mrCache.lookupByAddr call.addr with
    | none =>
      (x, .returned (.error .addrInvalid), [.returned i none (.error .addrInvalid)])
    | some entry =>
      ({ x with engine := { x.engine with nextOpaque := x.engine.nextOpaque + 1 } },
        .begun call entry x.engine.nextOpaque, [])
  | phase => (x, phase, [])

def register : CallPhase → Exchange ι × CallPhase × List (CallEvent ι)
  | .begun call entry opaqueId =>
    ({ engine :=
        { x.engine with
          pendingRequests :=
            x.engine.pendingRequests.insert opaqueId ⟨entry.ownerNode, call.verb⟩ }
       owner := Function.update x.owner opaqueId (some i)
       reply := Function.update x.reply i none },
      .registered call entry opaqueId, [])
  | phase => (x, phase, [])

def request (call : RemoteCall) (entry : MrCacheEntry) (opaqueId : UInt64) : List UInt8 :=
  buildDataFrame x.engine.localNodeId entry.ownerNode call.verb entry.remoteMrHandle call.addr
    opaqueId call.payload

/-- The request is sent; when that fails the call returns at once. -/
def send (now : Instant) : CallPhase → Exchange ι × CallPhase × List (CallEvent ι)
  | .registered call entry opaqueId =>
    let frame := x.request call entry opaqueId
    let (transport, sent) := x.engine.transport.send now entry.ownerNode frame false opaqueId
    let x := { x with engine := { x.engine with transport } }
    match sent with
    | .error e => (x, .returned (.error e), [.returned i (some opaqueId) (.error e)])
    | .ok _ => (x, .waiting call opaqueId, [])
  | phase => (x, phase, [])

/-- The call takes the response from its channel. -/
def receive : CallPhase → Exchange ι × CallPhase × List (CallEvent ι)
  | .waiting call opaqueId =>
    match x.reply i with
    | none => (x, .waiting call opaqueId, [])
    | some response =>
      (x, .returned (call.finish response),
        [.returned i (some opaqueId) (call.finish response)])
  | phase => (x, phase, [])

/-- The timer has run out or the sending end is gone. A response may still have come in
after the call looked at its channel for the last time. -/
def giveUp : CallPhase → Exchange ι × CallPhase × List (CallEvent ι)
  | .waiting _ opaqueId =>
    ({ x with engine := x.engine.timeoutRequest opaqueId }, .returned (.error .timeout),
      [.returned i (some opaqueId) (.error .timeout)])
  | phase => (x, phase, [])

/-- Each response goes to the channel stored under its identifier. -/
def deliver (completions : List Completion) (i : ι) : Option VerbResponse :=
  ((completions.find? fun c => x.owner c.opaqueId == some i).map Completion.response).or
    (x.reply i)

end Exchange

/-- The responses sent to waiting calls are returned with the engine. -/
def DataPlaneEngine.runTask (e : DataPlaneEngine) :
    EngineTask → DataPlaneEngine × List Completion
  | .handleVerbFrame now f =>
    let d := e.handleVerbFrame now f
    (d.engine, (d.completed.map fun c => ⟨f.ext.opaqueId, c.1, c.2⟩).toList)
  | .disconnectPeer nodeId => e.disconnectPeer nodeId
  | .operate op => ({ e with transport := e.transport.operate op }, [])
  | .handleIncoming now raw => ({ e with transport := (e.transport.handleIncoming now raw).1 }, [])
  | .post now nodeId frame opaqueId =>
    ({ e with transport := (e.transport.send now nodeId frame true opaqueId).1 }, [])
  | .grantCredits nodeId count =>
    ({ e with transport := e.transport.grantCredits nodeId count }, [])
  | .registerPeerSender nodeId sender =>
    ({ e with transport := e.transport.registerPeerSender nodeId sender }, [])
  | .removePeerSender nodeId => ({ e with transport := e.transport.removePeerSender nodeId }, [])
  | .refresh host mrCache => ({ e with host, mrCache }, [])

/-- The response frame a task processes. -/
def EngineTask.answers {ι : Type} : EngineTask → List (CallEvent ι)
  | .handleVerbFrame _ f =>
    if isResponseVerb f.ext.verb then [.answered f.ext.opaqueId f.header.srcNode] else []
  | _ => []

namespace RemoteCalls

variable {ι : Type} [DecidableEq ι]

def new (engine : DataPlaneEngine) : RemoteCalls ι :=
  ⟨⟨engine, fun _ => none, fun _ => none⟩, fun _ => .idle⟩

def step (p : RemoteCalls ι) : CallInput ι → RemoteCalls ι × List (CallEvent ι)
  | .begin i call => p.turn i fun x phase => x.begin i call phase
  | .register i => p.turn i fun x phase => x.register i phase
  | .send i now => p.turn i fun x phase => x.send i now phase
  | .receive i => p.turn i fun x phase => x.receive i phase
  | .giveUp i => p.turn i fun x phase => x.giveUp i phase
  | .task t =>
    let (engine, completions) := p.shared.engine.runTask t
    ({ p with shared := { p.shared with engine, reply := p.shared.deliver completions } },
      completions.map .completed ++ t.answers)

end RemoteCalls

/-! ## A call whose steps follow one another -/

theorem RemoteCall.start_eq (e : DataPlaneEngine) (now : Instant) (call : RemoteCall) :
    call.start e now = e.beginRequest now call.addr call.verb call.payload := by
  cases call <;> rfl

/-- With nothing in between, the steps up to the send are those of the whole call. -/
theorem RemoteCalls.start_alone {ι : Type} [DecidableEq ι] (p : RemoteCalls ι) (i : ι)
    (call : RemoteCall) (now : Instant) (hidle : p.thread i = .idle) :
    (Runs.run step p [.begin i call, .register i, .send i now]).1.shared.engine =
      (call.start p.shared.engine now).1 := by
  rw [RemoteCall.start_eq, DataPlaneEngine.beginRequest]
  cases hentry : p.shared.engine.mrCache.lookupByAddr call.addr with
  | none => simp [step, Exchange.begin, Exchange.register, Exchange.send, hidle, hentry]
  | some entry =>
    simp only [Runs.run_cons, Runs.run_nil, step, Threads.Pool.turn_shared,
      Threads.Pool.turn_thread_self, Exchange.begin, hidle, hentry, Exchange.register,
      Exchange.send, Exchange.request]
    split <;> rfl

/-! ## What the steps of a call do to the transport -/

namespace Exchange

variable {ι : Type} (x : Exchange ι) (i : ι) (phase : CallPhase)

@[simp] theorem begin_transport (call : RemoteCall) :
    (x.begin i call phase).1.engine.transport = x.engine.transport := by
  unfold begin
  split
  · split <;> rfl
  · rfl

@[simp] theorem register_transport [DecidableEq ι] :
    (x.register i phase).1.engine.transport = x.engine.transport := by
  cases phase <;> rfl

@[simp] theorem receive_transport :
    (x.receive i phase).1.engine.transport = x.engine.transport := by
  unfold receive
  split
  · split <;> rfl
  · rfl

@[simp] theorem giveUp_transport :
    (x.giveUp i phase).1.engine.transport = x.engine.transport := by
  cases phase <;> rfl

theorem send_of_registered (now : Instant) (call : RemoteCall) (entry : MrCacheEntry)
    (opaqueId : UInt64) :
    (x.send i now (.registered call entry opaqueId)).1.engine.transport =
      (x.engine.transport.send now entry.ownerNode (x.request call entry opaqueId) false
        opaqueId).1 := by
  unfold send
  dsimp only
  split <;> rfl

end Exchange

/-! ## What a task does to the pending table -/

section Fail
variable (pending : AList (fun _ : UInt64 => PendingCall)) (entries : List RetransmitEntry)

theorem lookup_failRequests (opaqueId : UInt64) :
    (DataPlaneEngine.failRequests pending entries).1.lookup opaqueId =
      if opaqueId ∈ ReliableSession.requestsOf entries then none else pending.lookup opaqueId := by
  induction entries generalizing pending with
  | nil => rfl
  | cons entry entries ih =>
    rw [ReliableSession.requestsOf_cons, DataPlaneEngine.failRequests]
    cases entry.isFireAndForget with
    | true => exact ih pending
    | false =>
      simp only [Bool.false_eq_true, if_false, List.mem_cons]
      cases hpending : pending.lookup entry.opaqueId with
      | none =>
        rw [ih]
        by_cases ho : opaqueId = entry.opaqueId
        · rw [ho, hpending, ite_self, if_pos (Or.inl rfl)]
        · simp only [ho, false_or]
      | some call =>
        rw [ih]
        by_cases ho : opaqueId = entry.opaqueId
        · rw [ho, AList.lookup_erase, ite_self, if_pos (Or.inl rfl)]
        · rw [AList.lookup_erase_ne ho]
          simp only [ho, false_or]

theorem mem_failRequests (completion : Completion) :
    completion ∈ (DataPlaneEngine.failRequests pending entries).2 ↔
      completion.opaqueId ∈ ReliableSession.requestsOf entries ∧
        pending.lookup completion.opaqueId = some completion.call ∧
        completion.response = ⟨4, []⟩ := by
  induction entries generalizing pending with
  | nil => simp [DataPlaneEngine.failRequests, ReliableSession.requestsOf]
  | cons entry entries ih =>
    rw [ReliableSession.requestsOf_cons, DataPlaneEngine.failRequests]
    cases entry.isFireAndForget with
    | true => exact ih pending
    | false =>
      simp only [Bool.false_eq_true, if_false, List.mem_cons]
      cases hpending : pending.lookup entry.opaqueId with
      | none =>
        rw [ih]
        by_cases ho : completion.opaqueId = entry.opaqueId
        · rw [ho, hpending]
          simp
        · simp only [ho, false_or]
      | some call =>
        obtain ⟨opaqueId, call', response⟩ := completion
        simp only [List.mem_cons, ih, Completion.mk.injEq]
        by_cases ho : opaqueId = entry.opaqueId
        · subst ho
          simp [hpending, eq_comm]
        · simp [ho]

end Fail

/-- A step that completes some of the pending calls and leaves the others. -/
structure Removes (e e' : DataPlaneEngine) (completions : List Completion) : Prop where
  pending : ∀ c ∈ completions, e.pendingRequests.lookup c.opaqueId = some c.call
  removed : ∀ c ∈ completions, e'.pendingRequests.lookup c.opaqueId = none
  kept : ∀ opaqueId, (∀ c ∈ completions, c.opaqueId ≠ opaqueId) →
    e'.pendingRequests.lookup opaqueId = e.pendingRequests.lookup opaqueId

theorem removes_nil {e e' : DataPlaneEngine} (h : e'.pendingRequests = e.pendingRequests) :
    Removes e e' [] := by
  constructor
  · nofun
  · nofun
  · intro opaqueId _
    rw [h]

theorem removes_handleVerbFrame (e : DataPlaneEngine) (now : Instant) (f : InboundFrame) :
    Removes e (e.runTask (.handleVerbFrame now f)).1 (e.runTask (.handleVerbFrame now f)).2 := by
  unfold DataPlaneEngine.runTask
  dsimp only
  rcases handleVerbFrame_pending e now f with ⟨hnone, hsame⟩ |
    ⟨-, call, response, hsome, hpending, herase⟩
  · rw [hnone]
    exact removes_nil hsame
  · rw [hsome, Option.map_some, Option.toList_some]
    constructor
    · simpa using hpending
    · simp [herase]
    · intro opaqueId hne
      rw [herase]
      exact AList.lookup_erase_ne (hne _ List.mem_cons_self).symm

theorem removes_disconnectPeer (e : DataPlaneEngine) (nodeId : UInt16) :
    Removes e (e.disconnectPeer nodeId).1 (e.disconnectPeer nodeId).2 := by
  unfold DataPlaneEngine.disconnectPeer
  dsimp only
  constructor
  · intro c hc
    exact ((mem_failRequests _ _ c).mp hc).2.1
  · intro c hc
    rw [lookup_failRequests, if_pos ((mem_failRequests _ _ c).mp hc).1]
  · intro opaqueId hne
    rw [lookup_failRequests]
    split_ifs with hrequest
    · cases hpending : e.pendingRequests.lookup opaqueId with
      | none => rfl
      | some call =>
        have hfailed := (mem_failRequests e.pendingRequests _ ⟨opaqueId, call, ⟨4, []⟩⟩).mpr
          ⟨hrequest, hpending, rfl⟩
        exact absurd rfl (hne _ hfailed)
    · rfl

theorem removes_runTask (e : DataPlaneEngine) (t : EngineTask) :
    Removes e (e.runTask t).1 (e.runTask t).2 := by
  cases t with
  | handleVerbFrame now f => exact removes_handleVerbFrame e now f
  | disconnectPeer nodeId => exact removes_disconnectPeer e nodeId
  | operate | handleIncoming | post | grantCredits | registerPeerSender | removePeerSender
  | refresh => exact removes_nil rfl

/-! ## What serving a frame leaves alone -/

/-- No identifier is taken, no session ends and no request is queued. -/
structure Serves (e e' : DataPlaneEngine) : Prop where
  nextOpaque : e'.nextOpaque = e.nextOpaque
  transport : e.transport.Quiet e'.transport

theorem Serves.trans {e e' e'' : DataPlaneEngine} (h : Serves e e') (h' : Serves e' e'') :
    Serves e e'' :=
  ⟨h'.nextOpaque.trans h.nextOpaque, h.transport.trans h'.transport⟩

section Serve
variable (e : DataPlaneEngine) (now : Instant) (node : UInt16)

theorem serves_respond (ext : DataExtHeader) (verb : Verb)
    (result : Except UbStatus (List UInt8)) :
    Serves e (e.respond now node ext verb result).1 := by
  cases result with
  | error status => exact ⟨rfl, .sendFrameToPeer _ _ _⟩
  | ok data =>
    have hinsert := TransportManager.Quiet.readCacheInsert e.transport now node
      (node, ext.opaqueId) (buildDataFrame e.localNodeId node verb ext.mrHandle ext.ubAddr
        ext.opaqueId data)
    exact ⟨rfl, hinsert.trans (.sendFrameToPeer _ _ _)⟩

theorem serves_resendCached (opaqueId : UInt64) :
    Serves e (e.resendCached now node opaqueId).1 := by
  have hget := TransportManager.Quiet.readCacheGet e.transport now node (node, opaqueId)
  unfold DataPlaneEngine.resendCached
  dsimp only
  split
  · exact ⟨rfl, hget.trans (.sendFrameToPeer _ _ _)⟩
  · exact ⟨rfl, hget⟩

theorem serves_dispatchReadReq (payload : List UInt8) (ext : DataExtHeader) :
    Serves e (e.dispatchReadReq now node payload ext).engine := by
  have hresend := serves_resendCached e now node ext.opaqueId
  unfold DataPlaneEngine.dispatchReadReq
  split
  · rename_i heq
    rw [heq] at hresend
    exact hresend
  · rename_i e' heq
    rw [heq] at hresend
    have hrespond := serves_respond { e' with host := (handleReadReq e'.host payload ext).host } now
      node ext .readResp (handleReadReq e'.host payload ext).result
    exact hresend.trans ⟨hrespond.nextOpaque, hrespond.transport⟩

theorem serves_dispatchAtomic (seq : ℕ) (ext : DataExtHeader) (respVerb : Verb)
    (run : Host → Handled (Except UbStatus (List UInt8))) :
    Serves e (e.dispatchAtomic now node seq ext respVerb run).engine := by
  unfold DataPlaneEngine.dispatchAtomic
  dsimp only
  split_ifs
  · exact serves_resendCached e now node ext.opaqueId
  · have hrespond := serves_respond { e with host := (run e.host).host } now node ext respVerb
      (run e.host).result
    exact ⟨hrespond.nextOpaque, hrespond.transport.trans (.markExecuted _ node seq)⟩

theorem serves_dispatchWrite (seq : ℕ) (run : Host → Handled (Option String)) :
    Serves e (e.dispatchWrite node seq run).engine := by
  unfold DataPlaneEngine.dispatchWrite
  split_ifs
  · exact ⟨rfl, .refl _⟩
  · exact ⟨rfl, .markExecuted _ _ _⟩

theorem serves_completePendingRequest (ext : DataExtHeader) (payload : List UInt8) :
    Serves e (e.completePendingRequest ext payload node).engine := by
  unfold DataPlaneEngine.completePendingRequest
  split
  · exact ⟨rfl, .refl _⟩
  · exact ⟨rfl, .completeRequest _ _ _⟩

theorem serves_handleVerbFrame (f : InboundFrame) :
    Serves e (e.handleVerbFrame now f).engine := by
  unfold DataPlaneEngine.handleVerbFrame
  dsimp only
  split
  · exact serves_dispatchWrite _ _ _ _
  · exact serves_dispatchReadReq _ _ _ _ _
  · exact serves_dispatchAtomic _ _ _ _ _ _ _
  · exact serves_dispatchAtomic _ _ _ _ _ _ _
  · exact ⟨rfl, .refl _⟩
  · exact serves_dispatchWrite _ _ _ _
  · exact serves_completePendingRequest _ _ _ _
  · exact serves_completePendingRequest _ _ _ _
  · exact serves_completePendingRequest _ _ _ _

/-- The tasks that end no session and queue no request. -/
def EngineTask.IsQuiet : EngineTask → Prop
  | .operate _ | .disconnectPeer _ => False
  | _ => True

theorem quiet_runTask {t : EngineTask} (ht : t.IsQuiet) :
    e.transport.Quiet (e.runTask t).1.transport := by
  cases t with
  | handleVerbFrame now f => exact (serves_handleVerbFrame e now f).transport
  | handleIncoming now raw => exact .handleIncoming _ _ _
  | post now nodeId frame opaqueId => exact .post _ _ _ _ _
  | grantCredits nodeId count => exact .grantCredits _ _ _
  | registerPeerSender | removePeerSender | refresh => exact .of_sessions_eq rfl
  | operate | disconnectPeer => exact ht.elim

end Serve

/-- Node 1 knows one region of node 2 and has an active session with it. -/
def callingEngine : DataPlaneEngine :=
  .new 1 ⟨MrTable.new 1 1, fun _ => ⟨.memory, 0, []⟩, JettyTable.new 1 16 16⟩
    (MrCacheTable.new.insert ⟨1, 2, UbAddr.new 1 2 0 0 0, 64, .read, .memory⟩)
    { (TransportManager.new 1 ⟨200, 8⟩) with
      sessions := AList.insert ⟨1, 2, 5⟩ (.new 1 2 5 200 8 4) ∅
      peerEpochs := AList.insert 2 5 ∅
      peerSenders := AList.insert 2 ⟨[], 256, false⟩ ∅ }

end UniBus.DataPlane
