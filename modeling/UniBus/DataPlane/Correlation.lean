import UniBus.DataPlane.Engine
import UniBus.Foundations.Runs

/-!
# Correlation of responses with requests

Runs of one engine that issues requests, gives up on some of them and
dispatches arriving frames in any order. The log records under which identifier
each request was issued and which frame completed it.
-/
namespace UniBus.DataPlane

open Wire Transport

/-- The remote calls that wait for a response. -/
inductive RemoteCall
  | ubReadRemote (addr : UbAddr) (len : UInt32)
  | ubAtomicCasRemote (addr : UbAddr) (expect new : UInt64)
  | ubAtomicFaaRemote (addr : UbAddr) (add : UInt64)

namespace RemoteCall

def addr : RemoteCall → UbAddr
  | ubReadRemote addr _ | ubAtomicCasRemote addr .. | ubAtomicFaaRemote addr _ => addr

def verb : RemoteCall → Verb
  | ubReadRemote .. => .readReq
  | ubAtomicCasRemote .. => .atomicCas
  | ubAtomicFaaRemote .. => .atomicFaa

def start (e : DataPlaneEngine) (now : Instant) :
    RemoteCall → DataPlaneEngine × Except UbError UInt64
  | ubReadRemote addr len => e.ubReadRemote now addr len
  | ubAtomicCasRemote addr expect new => e.ubAtomicCasRemote now addr expect new
  | ubAtomicFaaRemote addr add => e.ubAtomicFaaRemote now addr add

end RemoteCall

inductive EngineInput
  | call (now : Instant) (c : RemoteCall)
  | timeout (opaqueId : UInt64)
  | frame (now : Instant) (f : InboundFrame)

inductive EngineEvent
  | issued (opaqueId : UInt64) (call : PendingCall)
  | completed (f : InboundFrame) (call : PendingCall) (response : VerbResponse)
  deriving DecidableEq, Repr

/-- The request a call puts into the pending table. -/
def issuedBy (e : DataPlaneEngine) (c : RemoteCall) : Option EngineEvent :=
  (e.mrCache.lookupByAddr c.addr).map fun entry =>
    .issued e.nextOpaque ⟨entry.ownerNode, c.verb⟩

def engineStep (e : DataPlaneEngine) : EngineInput → DataPlaneEngine × List EngineEvent
  | .call now c => ((c.start e now).1, (issuedBy e c).toList)
  | .timeout opaqueId => (e.timeoutRequest opaqueId, [])
  | .frame now f =>
    let d := e.handleVerbFrame now f
    (d.engine, (d.completed.map fun (call, response) => .completed f call response).toList)

/-- The verbs that answer a request. -/
def isResponseVerb : Verb → Bool
  | .readResp | .atomicCasResp | .atomicFaaResp => true
  | _ => false

def responseVerb : Verb → Verb
  | .readReq => .readResp
  | .atomicCas => .atomicCasResp
  | .atomicFaa => .atomicFaaResp
  | v => v

/-- Every completion follows the issue of its request and comes from a response
frame with the identifier of the request. -/
def Matched (log : List EngineEvent) : Prop :=
  ∀ before after f call response, log = before ++ .completed f call response :: after →
    isResponseVerb f.ext.verb = true ∧ .issued f.ext.opaqueId call ∈ before

section
variable {e : DataPlaneEngine} {log : List EngineEvent}

/-- Of a new entry only a completion has to be accounted for. -/
theorem Matched.concat (h : Matched log) {ev : EngineEvent}
    (hev : ∀ f call response, ev = .completed f call response →
      isResponseVerb f.ext.verb = true ∧ .issued f.ext.opaqueId call ∈ log) :
    Matched (log ++ [ev]) := by
  intro before after f call response heq
  rcases Runs.concat_split heq with ⟨rest, hlog, -⟩ | ⟨rfl, rfl, -⟩
  · exact h before rest f call response hlog
  · exact hev f call response rfl

theorem handleVerbFrame_of_response (e : DataPlaneEngine) (now : Instant) {f : InboundFrame}
    (h : isResponseVerb f.ext.verb = true) :
    e.handleVerbFrame now f = e.completePendingRequest f.ext f.payload f.header.srcNode := by
  cases hverb : f.ext.verb with
  | readResp | atomicCasResp | atomicFaaResp => simp only [DataPlaneEngine.handleVerbFrame, hverb]
  | _ =>
    rw [hverb] at h
    cases h

/-- Dispatching completes a call only through a response verb, and then the one
pending under the frame's identifier; other frames leave the table alone. -/
theorem handleVerbFrame_pending (e : DataPlaneEngine) (now : Instant) (f : InboundFrame) :
    ((e.handleVerbFrame now f).completed = none ∧
      (e.handleVerbFrame now f).engine.pendingRequests = e.pendingRequests) ∨
    (isResponseVerb f.ext.verb = true ∧
      ∃ call response, (e.handleVerbFrame now f).completed = some (call, response) ∧
        e.pendingRequests.lookup f.ext.opaqueId = some call ∧
        (e.handleVerbFrame now f).engine.pendingRequests =
          e.pendingRequests.erase f.ext.opaqueId) := by
  cases hv : f.ext.verb with
  | write | writeImm | readReq | atomicCas | atomicFaa =>
    exact Or.inl (by simp [DataPlaneEngine.handleVerbFrame, hv])
  | send =>
    refine Or.inl ?_
    simp [DataPlaneEngine.handleVerbFrame, hv]
  | readResp | atomicCasResp | atomicFaaResp =>
    rw [handleVerbFrame_of_response e now (by rw [hv]; rfl)]
    cases hlookup : e.pendingRequests.lookup f.ext.opaqueId with
    | none =>
      refine Or.inl ?_
      simp [DataPlaneEngine.completePendingRequest, hlookup]
    | some call =>
      refine Or.inr ⟨rfl, call, ?_⟩
      simp [DataPlaneEngine.completePendingRequest, hlookup]

/-- A call registers its request even when sending it fails. -/
theorem start_pendingRequests (e : DataPlaneEngine) (now : Instant) (c : RemoteCall) :
    (c.start e now).1.pendingRequests =
      match e.mrCache.lookupByAddr c.addr with
      | none => e.pendingRequests
      | some entry => e.pendingRequests.insert e.nextOpaque ⟨entry.ownerNode, c.verb⟩ := by
  cases c with
  | ubReadRemote addr len =>
    simp only [RemoteCall.start, DataPlaneEngine.ubReadRemote, DataPlaneEngine.beginRequest]
    split <;> rename_i hlookup <;> simp [RemoteCall.addr, RemoteCall.verb, hlookup]
  | ubAtomicCasRemote addr expect new =>
    simp only [RemoteCall.start, DataPlaneEngine.ubAtomicCasRemote, DataPlaneEngine.beginRequest]
    split <;> rename_i hlookup <;> simp [RemoteCall.addr, RemoteCall.verb, hlookup]
  | ubAtomicFaaRemote addr add =>
    simp only [RemoteCall.start, DataPlaneEngine.ubAtomicFaaRemote, DataPlaneEngine.beginRequest]
    split <;> rename_i hlookup <;> simp [RemoteCall.addr, RemoteCall.verb, hlookup]

/-- Every pending request was issued under its identifier. -/
structure Correlated (e : DataPlaneEngine) (log : List EngineEvent) : Prop where
  pending : ∀ opaqueId call, e.pendingRequests.lookup opaqueId = some call →
    .issued opaqueId call ∈ log
  matched : Matched log

theorem Correlated.step (h : Correlated e log) (i : EngineInput) :
    Correlated (engineStep e i).1 (log ++ (engineStep e i).2) := by
  cases i with
  | call now c =>
    simp only [engineStep, issuedBy]
    have hstart := start_pendingRequests e now c
    cases hentry : e.mrCache.lookupByAddr c.addr with
    | none =>
      rw [hentry] at hstart
      simp only [Option.map_none, Option.toList_none, List.append_nil]
      exact ⟨by rw [hstart]; exact h.pending, h.matched⟩
    | some entry =>
      rw [hentry] at hstart
      simp only [Option.map_some, Option.toList_some]
      refine ⟨?_, h.matched.concat fun _ _ _ heq => nomatch heq⟩
      intro opaqueId call hlookup
      rw [hstart] at hlookup
      by_cases ho : opaqueId = e.nextOpaque
      · subst ho
        rw [AList.lookup_insert] at hlookup
        cases hlookup
        simp
      · rw [AList.lookup_insert_ne ho] at hlookup
        exact List.mem_append_left _ (h.pending _ _ hlookup)
  | timeout opaqueId =>
    simp only [engineStep, List.append_nil]
    refine ⟨?_, h.matched⟩
    intro o call hlookup
    exact h.pending o call (Maps.lookup_erase_of_some hlookup)
  | frame now f =>
    simp only [engineStep]
    rcases handleVerbFrame_pending e now f with ⟨hnone, hsame⟩ |
      ⟨hverb, call, response, hsome, hpending, herase⟩
    · rw [hnone, Option.map_none, Option.toList_none, List.append_nil]
      exact ⟨by rw [hsame]; exact h.pending, h.matched⟩
    · rw [hsome, Option.map_some, Option.toList_some]
      constructor
      · intro o call' hlookup
        rw [herase] at hlookup
        exact List.mem_append_left _ (h.pending o call' (Maps.lookup_erase_of_some hlookup))
      · apply h.matched.concat
        rintro _ _ _ ⟨⟩
        exact ⟨hverb, h.pending _ _ hpending⟩

end

/-- In every run of a new engine, a request is completed only after it was
issued, by a response frame that carries its identifier. -/
theorem completed_by_matching_response (localNodeId : UInt16) (host : Host)
    (mrCache : MrCacheTable) (transport : TransportManager) (inputs : List EngineInput) :
    Matched (Runs.run engineStep (.new localNodeId host mrCache transport) inputs).2 := by
  have hinit : Correlated (.new localNodeId host mrCache transport) [] := by
    refine ⟨?_, ?_⟩
    · intro opaqueId call hlookup
      cases hlookup
    · intro before after f call response heq
      simp at heq
  have hrun := Runs.run_always (fun e log i (h : Correlated e log) => h.step i) hinit inputs
  simpa using hrun.matched

/-- Node 2 knows one region, on node 1. -/
def readingEngine : DataPlaneEngine :=
  .new 2 ⟨MrTable.new 1 2, fun _ => ⟨.memory, 0, []⟩, JettyTable.new 2 16 16⟩
    (MrCacheTable.new.insert ⟨1, 1, UbAddr.new 1 1 0 0 0, 64, .read, .memory⟩)
    (TransportManager.new 2 ⟨200, 8⟩)

/-- A response of node 3 to an atomic request, with identifier 1. -/
def foreignResponse : InboundFrame where
  header := ⟨magic, version, .data, FrameFlags.empty, 3, 2, 0, 0, 16, 0⟩
  ext := ⟨.atomicFaaResp, ExtFlags.empty, 1, 0, 0, 1, 0, 0, 1, UbAddr.new 1 3 0 0 0, none⟩
  payload := atomicReply 5
  seq := 0

/-- A read sent to node 1 is completed by a fetch-and-add response of node 3. -/
theorem foreign_response_completes_read :
    (Runs.run engineStep readingEngine
      [.call 0 (.ubReadRemote (UbAddr.new 1 1 0 0 0) 16), .frame 0 foreignResponse]).2 =
        [.issued 1 ⟨1, .readReq⟩,
          .completed foreignResponse ⟨1, .readReq⟩ ⟨0, atomicReply 5⟩] ∧
      foreignResponse.header.srcNode ≠ 1 ∧
      foreignResponse.ext.verb ≠ responseVerb .readReq := by
  decide

end UniBus.DataPlane
