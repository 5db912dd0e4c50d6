import UniBus.DataPlane.RemoteCalls

/-!
# Requests of a session that dies

When a peer is disconnected, the requests queued for it fail with the link-down status.
The retransmission task and an invalidation end sessions too, and what they drain from
the retransmit queue reaches nobody: the calls wait until their own timeout.
-/
namespace UniBus.DataPlane

open Wire Transport

namespace RemoteCalls

variable {ι : Type} [DecidableEq ι]

/-- Each request of a session that the step ends is reported: its call is no longer
pending and was sent the link-down status. -/
def Reported (p : RemoteCalls ι) (input : CallInput ι) : Prop :=
  ∀ key s, p.shared.engine.transport.sessions.lookup key = some s → s.state = .active →
    (p.step input).1.shared.engine.transport.Ended key →
    ∀ opaqueId ∈ s.requests, ∀ call,
      p.shared.engine.pendingRequests.lookup opaqueId = some call →
      (p.step input).1.shared.engine.pendingRequests.lookup opaqueId = none ∧
        .completed ⟨opaqueId, call, ⟨4, []⟩⟩ ∈ (p.step input).2

/-- An operation of the transport ends an active session with a request that is pending. -/
def Discards (p : RemoteCalls ι) : CallInput ι → Prop
  | .task (.operate op) => ∃ key s,
      p.shared.engine.transport.sessions.lookup key = some s ∧ s.state = .active ∧
      op.Ends p.shared.engine.transport key s ∧
      ∃ opaqueId ∈ s.requests, ∃ call,
        p.shared.engine.pendingRequests.lookup opaqueId = some call
  | _ => False

variable {p : RemoteCalls ι}

theorem reported_of_live {input : CallInput ι}
    (hlive : ∀ key s, p.shared.engine.transport.sessions.lookup key = some s →
      s.state = .active → ¬ (p.step input).1.shared.engine.transport.Ended key) :
    p.Reported input := by
  intro key s hlookup hactive hended
  exact absurd hended (hlive key s hlookup hactive)

theorem reported_of_quiet {input : CallInput ι}
    (hquiet : p.shared.engine.transport.Quiet (p.step input).1.shared.engine.transport) :
    p.Reported input :=
  reported_of_live fun _ _ hlookup hactive => hquiet.not_ended hlookup hactive

theorem reported_of_isQuiet {t : EngineTask} (ht : t.IsQuiet) : p.Reported (.task t) :=
  reported_of_quiet (quiet_runTask p.shared.engine ht)

theorem reported_of_transport_eq {input : CallInput ι}
    (h : (p.step input).1.shared.engine.transport = p.shared.engine.transport) :
    p.Reported input := by
  apply reported_of_quiet
  rw [h]
  exact .refl _

variable (p : RemoteCalls ι)

theorem reported_send (i : ι) (now : Instant) :
    p.Reported (.send i now) := by
  cases hphase : p.thread i with
  | registered call entry opaqueId =>
    apply reported_of_live
    intro key s hlookup hactive hended
    have htouches : p.shared.engine.transport.Touches (fun s s' => s'.state = s.state)
        (p.step (.send i now)).1.shared.engine.transport := by
      rw [step, Threads.Pool.turn_shared, hphase, Exchange.send_of_registered]
      apply (TransportManager.Touches.send _ _ _ _ _ _).mono
      rintro s s' ⟨-, paid, hpaid, rfl⟩
      exact (ReliableSession.sameReceiver_consumeCredit hpaid).state
    obtain ⟨s', hlookup', hstate⟩ := htouches.after (fun _ => rfl) hlookup
    have hdead := hended s' hlookup'
    rw [hstate, hactive] at hdead
    cases hdead
  | _ =>
    apply reported_of_transport_eq
    rw [step, Threads.Pool.turn_shared, hphase]
    rfl

theorem reported_disconnectPeer (nodeId : UInt16) :
    p.Reported (.task (.disconnectPeer nodeId)) := by
  intro key s hlookup hactive hended opaqueId ho call hpending
  have hnode : key.remoteNode = nodeId :=
    (TransportManager.ended_operate_iff hlookup hactive (.notifyPeerDown nodeId)).mp hended
  have hrequest := (TransportManager.mem_requestsOf_notifyPeerDown p.shared.engine.transport nodeId
    opaqueId).mpr ⟨key, s, hlookup, hnode, ho⟩
  have hfailed := (mem_failRequests p.shared.engine.pendingRequests _
    ⟨opaqueId, call, ⟨4, []⟩⟩).mpr ⟨hrequest, hpending, rfl⟩
  constructor
  · exact (removes_disconnectPeer p.shared.engine nodeId).removed _ hfailed
  · exact List.mem_append_left _ (List.mem_map_of_mem hfailed)

theorem reported_operate_iff (op : TransportManager.Operation) :
    p.Reported (.task (.operate op)) ↔ ¬ p.Discards (.task (.operate op)) := by
  constructor
  · rintro hreported ⟨key, s, hlookup, hactive, hends, opaqueId, ho, call, hpending⟩
    have hended := (TransportManager.ended_operate_iff hlookup hactive op).mpr hends
    obtain ⟨hnone, -⟩ := hreported key s hlookup hactive hended opaqueId ho call hpending
    cases hpending.symm.trans hnone
  · intro hkept key s hlookup hactive hended opaqueId ho call hpending
    have hends := (TransportManager.ended_operate_iff hlookup hactive op).mp hended
    exact absurd ⟨key, s, hlookup, hactive, hends, opaqueId, ho, call, hpending⟩ hkept

theorem reported_iff (input : CallInput ι) :
    p.Reported input ↔ ¬ p.Discards input := by
  cases input with
  | begin i call =>
    exact iff_of_true (reported_of_transport_eq (p.shared.begin_transport i _ call)) id
  | register i => exact iff_of_true (reported_of_transport_eq (p.shared.register_transport i _)) id
  | send i now => exact iff_of_true (reported_send p i now) id
  | receive i => exact iff_of_true (reported_of_transport_eq (p.shared.receive_transport i _)) id
  | giveUp i => exact iff_of_true (reported_of_transport_eq (p.shared.giveUp_transport i _)) id
  | task t =>
    cases t with
    | operate op => exact reported_operate_iff p op
    | disconnectPeer nodeId => exact iff_of_true (reported_disconnectPeer p nodeId) id
    | _ => exact iff_of_true (reported_of_isQuiet (by trivial)) id

/-- In a run the requests of every session that dies are reported, just in case no
operation of the transport itself ends a session with a request that is still pending. -/
theorem dead_sessions_reported_iff (start : RemoteCalls ι) (inputs : List (CallInput ι)) :
    Runs.Meets step (fun p _ input => p.Reported input) start [] inputs ↔
      Runs.Meets step (fun p _ input => ¬ p.Discards input) start [] inputs :=
  Runs.meets_iff (I := fun _ _ => True) (fun p _ input _ => reported_iff p input)
    (fun _ _ _ _ _ => trivial) trivial inputs

/-- A read that gets no answer: the retransmission task gives up on the session and
nobody tells the call, not even a disconnect that follows. -/
theorem dead_session_unreported :
    let rounds : List (CallInput (Fin 1)) :=
      (List.range 9).map fun n => .task (.operate (.rtoTick ((n + 1) * 10 ^ 12)))
    let sent := Runs.run step (new callingEngine)
      [.begin 0 (.ubReadRemote (UbAddr.new 1 2 0 0 0) 16), .register 0, .send 0 0]
    let ended := Runs.run step sent.1 rounds
    let disconnected := Runs.run step ended.1 [.task (.disconnectPeer 2)]
    (sent.1.shared.engine.transport.sessions.lookup ⟨1, 2, 5⟩).map
        (fun s => (s.state, s.requests)) = some (.active, [1]) ∧
      (ended.1.shared.engine.transport.sessions.lookup ⟨1, 2, 5⟩).map
        (fun s => (s.state, s.requests)) = some (.dead, []) ∧
      ended.2 = [] ∧ disconnected.2 = [] ∧
      disconnected.1.shared.engine.pendingRequests.lookup 1 = some ⟨2, .readReq⟩ := by
  decide

end RemoteCalls
end UniBus.DataPlane
