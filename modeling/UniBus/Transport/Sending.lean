import UniBus.Transport.Manager

/-!
# A send that is refused

`send` takes a credit and puts the frame into the retransmit queue before it looks for
the channel to the peer. A channel that is missing, closed or full makes it return an
error, and the frame stays queued for the retransmission task.
-/
namespace UniBus.Transport

open Wire

/-- The part of a session that `send` works on. -/
def ReliableSession.sendSide (s : ReliableSession) : UInt32 × ℕ × List RetransmitEntry :=
  (s.availableCredits, s.nextSeq, s.retransmitQueue)

namespace TransportManager

variable (m : TransportManager)

/-- The current session with the peer is active and has a credit left. -/
def CanSend (remoteNode : UInt16) : Prop :=
  ∃ key session, m.findSession remoteNode = some (key, session) ∧ session.state = .active ∧
    session.availableCredits ≠ 0

/-- There is an open channel to the peer with room in it. -/
def Accepts (remoteNode : UInt16) : Prop :=
  ∃ sender, m.peerSenders.lookup remoteNode = some sender ∧ sender.closed = false ∧
    sender.queue.length < sender.capacity

/-- If the send returns an error, no session has changed on its sending side. -/
def FailsCleanly (now : Instant) (remoteNode : UInt16) (frame : List UInt8)
    (isFireAndForget : Bool) (opaqueId : UInt64) : Prop :=
  ∀ e, (m.send now remoteNode frame isFireAndForget opaqueId).2 = .error e → ∀ key,
    ((m.send now remoteNode frame isFireAndForget opaqueId).1.sessions.lookup key).map
        ReliableSession.sendSide =
      (m.sessions.lookup key).map ReliableSession.sendSide

/-- What `send` does once the session has let it through. -/
structure Sends (remoteNode : UInt16) (key : SessionKey) (session : ReliableSession)
    (m' : TransportManager) (result : Except UbError ℕ) : Prop where
  localNodeId : m'.localNodeId = m.localNodeId
  peerEpochs : m'.peerEpochs = m.peerEpochs
  sessions : m'.sessions = m.sessions.insert key session
  result : (m.Accepts remoteNode ∧ ∃ seq, result = .ok seq) ∨
    (¬ m.Accepts remoteNode ∧ result = .error .linkDown)

variable {m} {remoteNode : UInt16} {key : SessionKey} {session : ReliableSession}

theorem trySend_eq_none_iff {sender : Sender} {data : List UInt8} :
    sender.trySend data = none ↔
      ¬ (sender.closed = false ∧ sender.queue.length < sender.capacity) := by
  unfold Sender.trySend
  cases sender.closed <;> simp

theorem accepts_iff {sender : Sender} (hsender : m.peerSenders.lookup remoteNode = some sender) :
    m.Accepts remoteNode ↔ sender.closed = false ∧ sender.queue.length < sender.capacity := by
  constructor
  · rintro ⟨sender', hsender', haccepts⟩
    cases hsender.symm.trans hsender'
    exact haccepts
  · intro haccepts
    exact ⟨sender, hsender, haccepts⟩

theorem sends_of_canSend (now : Instant) (frame : List UInt8) (isFireAndForget : Bool)
    (opaqueId : UInt64) (hfind : m.findSession remoteNode = some (key, session))
    (hactive : session.state = .active) (hcredit : session.availableCredits ≠ 0) :
    let paid := { session with availableCredits := session.availableCredits - 1 }
    let sent := m.send now remoteNode frame isFireAndForget opaqueId
    m.Sends remoteNode key (paid.assignSeq now frame isFireAndForget opaqueId).1 sent.1 sent.2 := by
  intro paid sent
  unfold findSession at hfind
  cases hepoch : m.peerEpochs.lookup remoteNode with
  | none =>
    rw [hepoch] at hfind
    cases hfind
  | some epoch =>
    simp only [hepoch, Option.map_eq_some_iff, Prod.mk.injEq] at hfind
    obtain ⟨found, hlookup, rfl, rfl⟩ := hfind
    have hpaid : found.consumeCredit = .ok paid := if_neg hcredit
    simp only [sent, send, hepoch, hlookup, hactive, ne_eq, not_true_eq_false, if_false, hpaid,
      setSession]
    cases hsender : m.peerSenders.lookup remoteNode with
    | none =>
      refine ⟨rfl, rfl, rfl, Or.inr ⟨?_, rfl⟩⟩
      rintro ⟨sender, hsender', -⟩
      cases hsender.symm.trans hsender'
    | some sender =>
      dsimp only
      cases htry : sender.trySend (paid.assignSeq now frame isFireAndForget opaqueId).2.1 with
      | none =>
        refine ⟨rfl, rfl, rfl, Or.inr ⟨?_, rfl⟩⟩
        rw [accepts_iff hsender]
        exact trySend_eq_none_iff.mp htry
      | some sender' =>
        refine ⟨rfl, rfl, rfl, Or.inl ⟨?_, _, rfl⟩⟩
        rw [accepts_iff hsender]
        by_contra hrefuses
        cases htry.symm.trans (trySend_eq_none_iff.mpr hrefuses)

theorem send_of_not_canSend (now : Instant) (frame : List UInt8) (isFireAndForget : Bool)
    (opaqueId : UInt64) (h : ¬ m.CanSend remoteNode) :
    (m.send now remoteNode frame isFireAndForget opaqueId).1 = m ∧
      ∃ e, (m.send now remoteNode frame isFireAndForget opaqueId).2 = .error e := by
  unfold send
  cases hepoch : m.peerEpochs.lookup remoteNode with
  | none => exact ⟨rfl, _, rfl⟩
  | some epoch =>
    dsimp only
    cases hlookup : m.sessions.lookup (m.keyFor remoteNode epoch) with
    | none => exact ⟨rfl, _, rfl⟩
    | some session =>
      dsimp only
      split_ifs with hactive
      · exact ⟨rfl, _, rfl⟩
      · have hcredit : session.availableCredits = 0 := by
          by_contra hcredit
          apply h
          refine ⟨m.keyFor remoteNode epoch, session, ?_, not_ne_iff.mp hactive, hcredit⟩
          simp only [findSession, hepoch, hlookup, Option.map_some]
        have hnone : session.consumeCredit = .error .noResources := if_pos hcredit
        rw [hnone]
        exact ⟨rfl, _, rfl⟩

theorem send_ok_iff (m : TransportManager) (now : Instant) (remoteNode : UInt16)
    (frame : List UInt8) (isFireAndForget : Bool) (opaqueId : UInt64) :
    (∃ seq, (m.send now remoteNode frame isFireAndForget opaqueId).2 = .ok seq) ↔
      m.CanSend remoteNode ∧ m.Accepts remoteNode := by
  by_cases hcan : m.CanSend remoteNode
  · obtain ⟨key, session, hfind, hactive, hcredit⟩ := id hcan
    have hsends := sends_of_canSend now frame isFireAndForget opaqueId hfind hactive hcredit
    rw [and_iff_right hcan]
    rcases hsends.result with ⟨haccepts, hok⟩ | ⟨hrefuses, herror⟩
    · exact iff_of_true hok haccepts
    · rw [herror]
      exact iff_of_false (fun ⟨_, hok⟩ => nomatch hok) hrefuses
  · obtain ⟨-, e, herror⟩ := send_of_not_canSend now frame isFireAndForget opaqueId hcan
    rw [herror]
    exact iff_of_false (fun ⟨_, hok⟩ => nomatch hok) fun h => hcan h.1

/-- A failed send is without effect just in case a session that lets the frame through has
a channel that takes it. -/
theorem failed_send_unchanged_iff (m : TransportManager) (now : Instant) (remoteNode : UInt16)
    (frame : List UInt8) (isFireAndForget : Bool) (opaqueId : UInt64) :
    m.FailsCleanly now remoteNode frame isFireAndForget opaqueId ↔
      (m.CanSend remoteNode → m.Accepts remoteNode) := by
  constructor
  · rintro hclean ⟨key, session, hfind, hactive, hcredit⟩
    have hsends := sends_of_canSend now frame isFireAndForget opaqueId hfind hactive hcredit
    rcases hsends.result with ⟨haccepts, -⟩ | ⟨-, herror⟩
    · exact haccepts
    · -- the queue of the session has grown by the refused frame
      have hside := hclean _ herror key
      rw [hsends.sessions, AList.lookup_insert, (findSession_eq_some hfind).1] at hside
      have hqueue := congrArg (fun side => side.2.2.length) (Option.some.inj hside)
      simp [ReliableSession.sendSide, ReliableSession.assignSeq] at hqueue
  · intro haccepts e herror key
    by_cases hcan : m.CanSend remoteNode
    · obtain ⟨key', session, hfind, hactive, hcredit⟩ := hcan
      have hsends := sends_of_canSend now frame isFireAndForget opaqueId hfind hactive hcredit
      rcases hsends.result with ⟨-, seq, hok⟩ | ⟨hrefuses, -⟩
      · cases hok.symm.trans herror
      · exact absurd (haccepts ⟨key', session, hfind, hactive, hcredit⟩) hrefuses
    · rw [(send_of_not_canSend now frame isFireAndForget opaqueId hcan).1]

/-- The send fails because no channel is registered; the frame goes out with the next
round of the retransmission task once there is one. -/
theorem refused_frame_sent_later :
    let m : TransportManager :=
      { (TransportManager.new 1 ⟨200, 8⟩) with
        sessions := AList.insert ⟨1, 2, 5⟩ (.new 1 2 5 200 8 4) ∅
        peerEpochs := AList.insert 2 5 ∅ }
    let frame : List UInt8 := List.replicate 24 0
    let refused := m.send 0 2 frame false 7
    let later := (refused.1.registerPeerSender 2 ⟨[], 256, false⟩).rtoTick 200000000
    refused.2 = .error .linkDown ∧
      (refused.1.sessions.lookup ⟨1, 2, 5⟩).map (fun s =>
        (s.availableCredits, s.nextSeq, s.retransmitQueue.map RetransmitEntry.opaqueId)) =
          some (3, 2, [7]) ∧
      (later.peerSenders.lookup 2).map (fun sender => sender.queue.length) = some 1 := by
  decide

end TransportManager
end UniBus.Transport
