import UniBus.DataPlane.RemoteCalls

/-!
# Requests that were answered

A response takes its request out of the retransmit queue only if the call is still
pending. A response that comes after the timeout finds no pending call, and the request
goes on being retransmitted until the session dies.
-/
namespace UniBus.DataPlane

open Wire Transport

/-! ## The response path -/

/-- Every session with the peer that has the request queued is its current one, has it
once, and the call is still pending. -/
def DataPlaneEngine.Expects (e : DataPlaneEngine) (peer : UInt16) (opaqueId : UInt64) : Prop :=
  ∀ key s, e.transport.sessions.lookup key = some s → key.remoteNode = peer →
    opaqueId ∈ s.requests →
    (∃ call, e.pendingRequests.lookup opaqueId = some call) ∧
      e.transport.findSession peer = some (key, s) ∧ s.requests.count opaqueId = 1

theorem not_queued_completePendingRequest_iff (e : DataPlaneEngine) (ext : DataExtHeader)
    (payload : List UInt8) (peer : UInt16) :
    ¬ (e.completePendingRequest ext payload peer).engine.transport.Queued peer ext.opaqueId ↔
      e.Expects peer ext.opaqueId := by
  unfold DataPlaneEngine.completePendingRequest DataPlaneEngine.Expects
  cases hpending : e.pendingRequests.lookup ext.opaqueId with
  | none =>
    constructor
    · intro hnot key s hlookup hnode ho
      exact absurd ⟨key, s, hlookup, hnode, ho⟩ hnot
    · rintro hexpects ⟨key, s, hlookup, hnode, ho⟩
      obtain ⟨⟨call, hcall⟩, -⟩ := hexpects key s hlookup hnode ho
      cases hcall
  | some call =>
    dsimp only
    rw [TransportManager.queued_completeRequest_iff]
    constructor
    · intro hnot key s hlookup hnode ho
      refine ⟨⟨call, rfl⟩, ?_⟩
      by_contra hother
      exact hnot ⟨key, s, hlookup, hnode, ho, hother⟩
    · rintro hexpects ⟨key, s, hlookup, hnode, ho, hother⟩
      exact hother (hexpects key s hlookup hnode ho).2

def CallInput.answers {ι : Type} : CallInput ι → List (CallEvent ι)
  | .task t => t.answers
  | _ => []

namespace RemoteCalls

variable {ι : Type} [DecidableEq ι]

/-- No request that was answered is queued for the peer that answered it. -/
def Settled (p : RemoteCalls ι) (log : List (CallEvent ι)) : Prop :=
  ∀ opaqueId peer, .answered opaqueId peer ∈ log →
    ¬ p.shared.engine.transport.Queued peer opaqueId

/-- Responses are expected when they arrive, and no request is sent that was answered. -/
def Timely (p : RemoteCalls ι) (log : List (CallEvent ι)) : CallInput ι → Prop
  | .send i _ => ∀ call entry opaqueId, p.thread i = .registered call entry opaqueId →
      p.shared.engine.transport.CanSend entry.ownerNode →
      .answered opaqueId entry.ownerNode ∉ log
  | .task (.handleVerbFrame _ f) => isResponseVerb f.ext.verb = true →
      p.shared.engine.Expects f.header.srcNode f.ext.opaqueId
  | _ => True

variable {p p' : RemoteCalls ι} {log events : List (CallEvent ι)}

omit [DecidableEq ι] in
theorem Settled.mono (h : p.Settled log)
    (hqueued : ∀ peer opaqueId, p'.shared.engine.transport.Queued peer opaqueId →
      p.shared.engine.transport.Queued peer opaqueId) : p'.Settled log :=
  fun opaqueId peer hmem hq => h opaqueId peer hmem (hqueued peer opaqueId hq)

omit [DecidableEq ι] in
theorem settled_append_iff :
    p.Settled (log ++ events) ↔ p.Settled log ∧ p.Settled events := by
  simp only [Settled, List.mem_append, or_imp, forall_and]

theorem answered_mem_step_iff (p : RemoteCalls ι) (input : CallInput ι) (opaqueId : UInt64)
    (peer : UInt16) : .answered opaqueId peer ∈ (p.step input).2 ↔
      .answered opaqueId peer ∈ input.answers := by
  cases input with
  | begin i call =>
    simp only [step, Threads.Pool.turn_log, Exchange.begin, CallInput.answers]
    split
    · split <;> simp
    · rfl
  | register i =>
    simp only [step, Threads.Pool.turn_log, Exchange.register, CallInput.answers]
    split <;> rfl
  | send i now =>
    simp only [step, Threads.Pool.turn_log, Exchange.send, CallInput.answers]
    split
    · split <;> simp
    · rfl
  | receive i =>
    simp only [step, Threads.Pool.turn_log, Exchange.receive, CallInput.answers]
    split
    · split <;> simp
    · rfl
  | giveUp i =>
    simp only [step, Threads.Pool.turn_log, Exchange.giveUp, CallInput.answers]
    split <;> simp
  | task t => simp [step, CallInput.answers]

section
variable (h : p.Settled log)
include h

theorem Settled.step_of_queued {input : CallInput ι} (hinput : input.answers = [])
    (hqueued : ∀ peer opaqueId,
      (p.step input).1.shared.engine.transport.Queued peer opaqueId →
      p.shared.engine.transport.Queued peer opaqueId) :
    (p.step input).1.Settled (log ++ (p.step input).2) := by
  rw [settled_append_iff]
  refine ⟨h.mono hqueued, ?_⟩
  intro opaqueId peer hmem
  rw [answered_mem_step_iff, hinput] at hmem
  cases hmem

theorem Settled.step_of_transport_eq {input : CallInput ι} (hinput : input.answers = [])
    (htransport : (p.step input).1.shared.engine.transport = p.shared.engine.transport) :
    (p.step input).1.Settled (log ++ (p.step input).2) := by
  apply h.step_of_queued hinput
  intro peer opaqueId
  rw [htransport]
  exact id

theorem Settled.step_of_quiet {t : EngineTask} (ht : t.IsQuiet)
    (hinput : (t.answers : List (CallEvent ι)) = []) :
    (p.step (.task t)).1.Settled (log ++ (p.step (.task t)).2) :=
  h.step_of_queued hinput fun _ _ => (quiet_runTask p.shared.engine ht).queued

theorem Settled.send_iff (i : ι) (now : Instant) :
    (p.step (.send i now)).1.Settled (log ++ (p.step (.send i now)).2) ↔
      p.Timely log (.send i now) := by
  cases hphase : p.thread i with
  | registered call entry opaqueId =>
    have hqueued : ∀ peer other,
        (p.step (.send i now)).1.shared.engine.transport.Queued peer other ↔
          p.shared.engine.transport.Queued peer other ∨
            p.shared.engine.transport.CanSend entry.ownerNode ∧ peer = entry.ownerNode ∧
              other = opaqueId := by
      intro peer other
      rw [step, Threads.Pool.turn_shared, hphase, Exchange.send_of_registered]
      exact TransportManager.queued_send_iff ..
    have hevents : (p.step (.send i now)).1.Settled (p.step (.send i now)).2 := by
      intro other peer hmem
      rw [answered_mem_step_iff] at hmem
      cases hmem
    rw [settled_append_iff, and_iff_left hevents]
    constructor
    · intro hsettled call' entry' opaqueId' hphase' hcan hmem
      cases hphase.symm.trans hphase'
      exact hsettled _ _ hmem ((hqueued _ _).mpr (Or.inr ⟨hcan, rfl, rfl⟩))
    · intro htimely other peer hmem hafter
      rcases (hqueued peer other).mp hafter with hbefore | ⟨hcan, rfl, rfl⟩
      · exact h other peer hmem hbefore
      · exact htimely call entry other hphase hcan hmem
  | _ =>
    apply iff_of_true
    · apply h.step_of_transport_eq rfl
      rw [step, Threads.Pool.turn_shared, hphase]
      rfl
    · intro call' entry' opaqueId' hphase'
      cases hphase.symm.trans hphase'

theorem Settled.response_iff (now : Instant) {f : InboundFrame}
    (hresponse : isResponseVerb f.ext.verb = true) :
    (p.step (.task (.handleVerbFrame now f))).1.Settled
        (log ++ (p.step (.task (.handleVerbFrame now f))).2) ↔
      p.shared.engine.Expects f.header.srcNode f.ext.opaqueId := by
  have hengine : (p.step (.task (.handleVerbFrame now f))).1.shared.engine =
      (p.shared.engine.completePendingRequest f.ext f.payload f.header.srcNode).engine := by
    rw [← handleVerbFrame_of_response p.shared.engine now hresponse]
    rfl
  have hlog : (p.step (.task (.handleVerbFrame now f))).1.Settled log :=
    h.mono fun _ _ => (serves_handleVerbFrame p.shared.engine now f).transport.queued
  have hanswers : ∀ opaqueId peer,
      .answered opaqueId peer ∈ (p.step (.task (.handleVerbFrame now f))).2 ↔
        opaqueId = f.ext.opaqueId ∧ peer = f.header.srcNode := by
    intro opaqueId peer
    simp [answered_mem_step_iff, CallInput.answers, EngineTask.answers, hresponse]
  rw [settled_append_iff, and_iff_right hlog, ← not_queued_completePendingRequest_iff, ← hengine]
  constructor
  · intro hsettled
    exact hsettled _ _ ((hanswers _ _).mpr ⟨rfl, rfl⟩)
  · intro hnot opaqueId peer hmem
    obtain ⟨rfl, rfl⟩ := (hanswers opaqueId peer).mp hmem
    exact hnot

theorem Settled.step_iff (input : CallInput ι) :
    (p.step input).1.Settled (log ++ (p.step input).2) ↔ p.Timely log input := by
  cases input with
  | begin i call =>
    exact iff_of_true (h.step_of_transport_eq rfl (p.shared.begin_transport i _ call)) trivial
  | register i =>
    exact iff_of_true (h.step_of_transport_eq rfl (p.shared.register_transport i _)) trivial
  | send i now => exact h.send_iff i now
  | receive i =>
    exact iff_of_true (h.step_of_transport_eq rfl (p.shared.receive_transport i _)) trivial
  | giveUp i =>
    exact iff_of_true (h.step_of_transport_eq rfl (p.shared.giveUp_transport i _)) trivial
  | task t =>
    cases t with
    | handleVerbFrame now f =>
      cases hresponse : isResponseVerb f.ext.verb with
      | true =>
        rw [h.response_iff now hresponse]
        exact ⟨fun hexpects _ => hexpects, fun htimely => htimely hresponse⟩
      | false =>
        apply iff_of_true
        · apply h.step_of_quiet (by trivial)
          simp [EngineTask.answers, hresponse]
        · intro htrue
          cases htrue.symm.trans hresponse
    | operate op =>
      exact iff_of_true (h.step_of_queued rfl fun _ _ => TransportManager.queued_of_operate) trivial
    | disconnectPeer nodeId =>
      refine iff_of_true (h.step_of_queued rfl ?_) trivial
      intro peer opaqueId hqueued
      have hdown : (p.shared.engine.transport.operate (.notifyPeerDown nodeId)).Queued peer
          opaqueId := hqueued
      exact TransportManager.queued_of_operate hdown
    | _ => exact iff_of_true (h.step_of_quiet (by trivial) rfl) trivial

end

/-- In a run no answered request is ever queued for the peer that answered it, just in
case every response is expected when it arrives and no answered request is sent. -/
theorem answered_requests_settled_iff (engine : DataPlaneEngine) (inputs : List (CallInput ι)) :
    Runs.Meets step (fun p log input => (p.step input).1.Settled (log ++ (p.step input).2))
        (new engine) [] inputs ↔
      Runs.Meets step (fun p log input => p.Timely log input) (new engine) [] inputs :=
  Runs.meets_iff (I := fun p log => Settled p log) (fun p log input h => h.step_iff input)
    (fun p log input _ hafter => hafter) (fun _ _ hmem => (by cases hmem)) inputs

/-- The response of node 2 to the read with identifier 1. -/
def readResponse : InboundFrame where
  header := ⟨magic, version, .data, FrameFlags.empty, 2, 1, 0, 0, 16, 0⟩
  ext := ⟨.readResp, ExtFlags.empty, 1, 0, 0, 1, 0, 0, 1, UbAddr.new 1 2 0 0 0, none⟩
  payload := List.replicate 16 0
  seq := 0

/-- A response that comes after the timeout leaves its request queued. Nothing else is
queued, and the retransmissions of the answered request end with the death of the session. -/
theorem late_response_kills_session :
    let rounds : List (CallInput (Fin 1)) :=
      (List.range 9).map fun n => .task (.operate (.rtoTick ((n + 1) * 10 ^ 12)))
    let answered := Runs.run step (new callingEngine)
      [.begin 0 (.ubReadRemote (UbAddr.new 1 2 0 0 0) 16), .register 0, .send 0 0, .giveUp 0,
        .task (.handleVerbFrame 0 readResponse)]
    let ended := Runs.run step answered.1 rounds
    answered.2 = [.returned 0 (some 1) (.error .timeout), .answered 1 2] ∧
      (answered.1.shared.engine.transport.sessions.lookup ⟨1, 2, 5⟩).map
        (fun s => (s.state, s.requests)) = some (.active, [1]) ∧
      (ended.1.shared.engine.transport.sessions.lookup ⟨1, 2, 5⟩).map
        (fun s => s.state) = some .dead := by
  decide

end RemoteCalls
end UniBus.DataPlane
