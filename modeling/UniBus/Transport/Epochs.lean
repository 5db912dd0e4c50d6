import UniBus.Foundations.Network
import UniBus.Transport.Records

/-!
# Sessions across the incarnations of a peer

A peer that restarts comes back under another epoch, and the manager is told so
by another `create_session`. Runs of a manager in which sessions are created,
invalidated, torn down and timed out while frames are sent and arrive: which
sessions of a peer can be active, and which frames reach the engine.
-/
namespace UniBus.Transport

open Wire

namespace ReliableSession

/-- A dead session has nothing left to resend. -/
def Drained (s : ReliableSession) : Prop := s.state = .dead → s.retransmitQueue = []

/-- What becomes of a session: it never comes back to life and stays drained. -/
structure Follows (s s' : ReliableSession) : Prop where
  active : s'.state = .active → s.state = .active
  drained : s.Drained → s'.Drained

theorem Follows.refl (s : ReliableSession) : Follows s s := ⟨id, id⟩

theorem follows_of_state {s s' : ReliableSession} (hstate : s'.state = s.state)
    (hqueue : s.retransmitQueue = [] → s'.retransmitQueue = []) : Follows s s' := by
  constructor
  · rw [hstate]
    exact id
  · intro hdrained hdead
    rw [hstate] at hdead
    exact hqueue (hdrained hdead)

theorem follows_of_active {s s' : ReliableSession} (hs : s.state = .active)
    (hs' : s'.state = .active) : Follows s s' := by
  constructor
  · exact fun _ => hs
  · intro _ hdead
    rw [hs'] at hdead
    cases hdead

theorem follows_receiveFrame (s : ReliableSession) (seq : ℕ) :
    Follows s (s.receiveFrame seq).1 := by
  apply follows_of_state (s.receiveFrame_state seq)
  exact (s.receiveFrame_retransmitQueue seq).trans

theorem follows_handleAck (s : ReliableSession) (now : Instant) (ack : AckPayload) :
    Follows s ((s.processAckForFastRetransmit ack).1.processAck now ack).1 := by
  have hcounted := s.sameReceiver_processAckForFastRetransmit ack
  have hacked := (s.processAckForFastRetransmit ack).1.sameReceiver_processAck now ack
  apply follows_of_state (hcounted.trans hacked).state
  intro hqueue
  rw [processAck_retransmitQueue, processAckForFastRetransmit_retransmitQueue, hqueue,
    List.filter_nil]

theorem follows_tick (s : ReliableSession) (now : Instant) : Follows s (s.tick now).1 := by
  unfold tick
  split_ifs with hactive
  · exact .refl s
  · have hs := not_ne_iff.mp hactive
    have hcheck : Follows s (s.checkRto now).1 := by
      rcases s.checkRto_cases now with
        ⟨hne, -⟩ | ⟨-, -, heq⟩ | ⟨-, -, -, heq⟩ | ⟨-, -, -, heq⟩
      · exact absurd hs hne
      · rw [heq]
        exact ⟨fun h => (by cases h), fun _ _ => rfl⟩
      · rw [heq]
        exact follows_of_active hs hs
      · rw [heq]
        exact follows_of_active hs hs
    dsimp only
    split_ifs <;> exact hcheck

end ReliableSession

namespace TransportManager

/-- The step from `m` to `m'` keeps the epochs, opens no session, and every
session that is left follows from the one before. -/
structure Within (m m' : TransportManager) : Prop where
  localNodeId : m'.localNodeId = m.localNodeId
  peerEpochs : m'.peerEpochs = m.peerEpochs
  sessions : ∀ key session', m'.sessions.lookup key = some session' →
    ∃ session, m.sessions.lookup key = some session ∧ session.Follows session'

namespace Within

variable {m : TransportManager}

theorem of_sessions_eq {m' : TransportManager} (hnode : m'.localNodeId = m.localNodeId)
    (hepochs : m'.peerEpochs = m.peerEpochs) (hsessions : m'.sessions = m.sessions) :
    Within m m' := by
  refine ⟨hnode, hepochs, ?_⟩
  intro key session hlookup
  rw [hsessions] at hlookup
  exact ⟨session, hlookup, .refl session⟩

theorem refl (m : TransportManager) : Within m m := of_sessions_eq rfl rfl rfl

theorem of_touches {m' : TransportManager} (h : m.Touches ReliableSession.Follows m') :
    Within m m' :=
  ⟨h.localNodeId, h.peerEpochs, fun _ _ hlookup => h.before .refl hlookup⟩

theorem rtoTick (m : TransportManager) (now : Instant) : Within m (m.rtoTick now) := by
  refine ⟨m.rtoTick_localNodeId now, m.rtoTick_peerEpochs now, ?_⟩
  intro key session' hlookup
  rw [rtoTick_lookup] at hlookup
  obtain ⟨session, hsession, rfl⟩ := Option.map_eq_some_iff.mp hlookup
  exact ⟨session, hsession, session.follows_tick now⟩

theorem invalidateSession (m : TransportManager) (remoteNode : UInt16) (oldEpoch : UInt32) :
    Within m (m.invalidateSession remoteNode oldEpoch).1 := by
  unfold TransportManager.invalidateSession
  dsimp only
  split
  · refine ⟨rfl, rfl, ?_⟩
    intro key session hlookup
    exact ⟨session, Maps.lookup_erase_of_some hlookup, .refl session⟩
  · exact refl m

theorem send (m : TransportManager) (now : Instant) (node : UInt16) (frame : List UInt8)
    (isFireAndForget : Bool) (opaqueId : UInt64) :
    Within m (m.send now node frame isFireAndForget opaqueId).1 := by
  apply of_touches ((Touches.send m now node frame isFireAndForget opaqueId).mono _)
  rintro s s' ⟨hactive, paid, hcredit, rfl⟩
  have hpaid := (ReliableSession.sameReceiver_consumeCredit hcredit).state
  exact ReliableSession.follows_of_active hactive (hpaid.trans hactive)

theorem handleIncoming (m : TransportManager) (now : Instant) (raw : List UInt8) :
    Within m (m.handleIncoming now raw).1 := by
  apply of_touches ((Touches.handleIncoming m now raw).mono _)
  intro s s' hreceived
  cases hreceived with
  | taken seq => exact s.follows_receiveFrame seq
  | acknowledged seq hasGap =>
    have htaken := s.follows_receiveFrame seq
    exact ⟨htaken.active, htaken.drained⟩
  | acked now ack => exact s.follows_handleAck now ack
  | credited credits => exact ReliableSession.follows_of_state rfl id

end Within

/-! ## At most one active session for each peer -/

/-- The operations that open and close sessions. -/
inductive Operation
  | createSession (remoteNode : UInt16) (epoch initialCredits : UInt32)
  | invalidateSession (remoteNode : UInt16) (oldEpoch : UInt32)
  | notifyPeerDown (nodeId : UInt16)
  | rtoTick (now : Instant)

/-- A refused `create_session` changes nothing. -/
def operate (m : TransportManager) : Operation → TransportManager
  | .createSession remoteNode epoch initialCredits =>
    match m.createSession remoteNode epoch initialCredits with
    | .ok m' => m'
    | .error _ => m
  | .invalidateSession remoteNode oldEpoch => (m.invalidateSession remoteNode oldEpoch).1
  | .notifyPeerDown nodeId => (m.notifyPeerDown nodeId).1
  | .rtoTick now => m.rtoTick now

inductive Input
  | operate (op : Operation)
  | send (now : Instant) (remoteNode : UInt16) (frame : List UInt8) (isFireAndForget : Bool)
      (opaqueId : UInt64)
  | handleIncoming (now : Instant) (raw : List UInt8)

def step (m : TransportManager) : Input → TransportManager × List InboundFrame
  | .operate op => (m.operate op, [])
  | .send now remoteNode frame isFireAndForget opaqueId =>
    ((m.send now remoteNode frame isFireAndForget opaqueId).1, [])
  | .handleIncoming now raw => m.handleIncoming now raw

/-- A peer has at most one active session, it is the one of the recorded epoch,
and sessions of other epochs have nothing left to resend. -/
structure OneLive (m : TransportManager) : Prop where
  unique : ∀ key session key' session',
    m.sessions.lookup key = some session → session.state = .active →
    m.sessions.lookup key' = some session' → session'.state = .active →
    key.remoteNode = key'.remoteNode → key = key'
  recorded : ∀ key session, m.sessions.lookup key = some session → session.state = .active →
    m.peerEpochs.lookup key.remoteNode = some key.epoch
  settled : ∀ key session, m.sessions.lookup key = some session →
    m.peerEpochs.lookup key.remoteNode ≠ some key.epoch → session.retransmitQueue = []

/-- When a session is created, no session of the peer under another epoch is
still active. -/
def NoneSuperseded (m : TransportManager) (_ : List InboundFrame) : Input → Prop
  | .operate (.createSession remoteNode epoch _) => ∀ key session,
    m.sessions.lookup key = some session → key.remoteNode = remoteNode → key.epoch ≠ epoch →
      session.state ≠ .active
  | _ => True

/-- The invariant behind `OneLive`. -/
structure Tracked (m : TransportManager) : Prop where
  ownKey : ∀ key session, m.sessions.lookup key = some session → key.localNode = m.localNodeId
  recorded : ∀ key session, m.sessions.lookup key = some session → session.state = .active →
    m.peerEpochs.lookup key.remoteNode = some key.epoch
  drained : ∀ key session, m.sessions.lookup key = some session → session.Drained

namespace Tracked

variable {m : TransportManager}

theorem oneLive (h : m.Tracked) : m.OneLive := by
  refine ⟨?_, h.recorded, ?_⟩
  · intro key session key' session' hlookup hactive hlookup' hactive' hnode
    have hepoch := h.recorded key session hlookup hactive
    have hepoch' := h.recorded key' session' hlookup' hactive'
    have hlocal := h.ownKey key session hlookup
    have hlocal' := h.ownKey key' session' hlookup'
    rw [hnode, hepoch', Option.some.injEq] at hepoch
    obtain ⟨_, _, _⟩ := key
    obtain ⟨_, _, _⟩ := key'
    simp_all
  · intro key session hlookup hother
    apply h.drained key session hlookup
    cases hstate : session.state with
    | active => exact absurd (h.recorded key session hlookup hstate) hother
    | dead => rfl

theorem within {m' : TransportManager} (h : m.Tracked) (hwithin : Within m m') : m'.Tracked := by
  constructor
  · intro key session' hlookup'
    obtain ⟨session, hlookup, -⟩ := hwithin.sessions key session' hlookup'
    rw [hwithin.localNodeId]
    exact h.ownKey key session hlookup
  · intro key session' hlookup' hactive
    obtain ⟨session, hlookup, hfollows⟩ := hwithin.sessions key session' hlookup'
    rw [hwithin.peerEpochs]
    exact h.recorded key session hlookup (hfollows.active hactive)
  · intro key session' hlookup'
    obtain ⟨session, hlookup, hfollows⟩ := hwithin.sessions key session' hlookup'
    exact hfollows.drained (h.drained key session hlookup)

theorem notifyPeerDown (h : m.Tracked) (nodeId : UInt16) :
    (m.notifyPeerDown nodeId).1.Tracked := by
  have hkept : ∀ key session, (m.notifyPeerDown nodeId).1.sessions.lookup key = some session →
      key.remoteNode ≠ nodeId ∧ m.sessions.lookup key = some session := by
    intro key session hlookup
    rw [notifyPeerDown_lookup] at hlookup
    split_ifs at hlookup with hnode
    exact ⟨hnode, hlookup⟩
  constructor
  · intro key session hlookup
    exact h.ownKey key session (hkept key session hlookup).2
  · intro key session hlookup hactive
    obtain ⟨hnode, hlookup⟩ := hkept key session hlookup
    exact (AList.lookup_erase_ne hnode).trans (h.recorded key session hlookup hactive)
  · intro key session hlookup
    exact h.drained key session (hkept key session hlookup).2

theorem createSession {m' : TransportManager} (h : m.Tracked) {remoteNode : UInt16}
    {epoch initialCredits : UInt32}
    (hnone : m.NoneSuperseded [] (.operate (.createSession remoteNode epoch initialCredits)))
    (hok : m.createSession remoteNode epoch initialCredits = .ok m') : m'.Tracked := by
  unfold TransportManager.createSession at hok
  dsimp only at hok
  split_ifs at hok
  cases hok
  have hcases : ∀ key session,
      (m.sessions.insert (m.keyFor remoteNode epoch) (ReliableSession.new m.localNodeId remoteNode
        epoch m.config.rtoMs m.config.maxRetries initialCredits)).lookup key = some session →
      (key = m.keyFor remoteNode epoch ∧ session.state = .active) ∨
        (key ≠ m.keyFor remoteNode epoch ∧ m.sessions.lookup key = some session) := by
    intro key session hlookup
    by_cases hkey : key = m.keyFor remoteNode epoch
    · subst hkey
      rw [AList.lookup_insert] at hlookup
      cases hlookup
      exact Or.inl ⟨rfl, rfl⟩
    · rw [AList.lookup_insert_ne hkey] at hlookup
      exact Or.inr ⟨hkey, hlookup⟩
  constructor
  · intro key session hlookup
    rcases hcases key session hlookup with ⟨rfl, -⟩ | ⟨-, hold⟩
    · rfl
    · exact h.ownKey key session hold
  · intro key session hlookup hactive
    rcases hcases key session hlookup with ⟨rfl, -⟩ | ⟨hkey, hold⟩
    · exact AList.lookup_insert _
    · have hnode : key.remoteNode ≠ remoteNode := by
        intro hnode
        apply hnone key session hold hnode ?_ hactive
        intro hepoch
        apply hkey
        have hlocal := h.ownKey key session hold
        obtain ⟨_, _, _⟩ := key
        simp_all [keyFor]
      exact (AList.lookup_insert_ne hnode).trans (h.recorded key session hold hactive)
  · intro key session hlookup
    rcases hcases key session hlookup with ⟨-, hactive⟩ | ⟨-, hold⟩
    · intro hdead
      rw [hactive] at hdead
      cases hdead
    · exact h.drained key session hold

theorem operate (h : m.Tracked) {op : Operation} (hnone : m.NoneSuperseded [] (.operate op)) :
    (m.operate op).Tracked := by
  cases op with
  | createSession remoteNode epoch initialCredits =>
    unfold TransportManager.operate
    dsimp only
    split
    · rename_i hok
      exact h.createSession hnone hok
    · exact h
  | invalidateSession remoteNode oldEpoch => exact h.within (.invalidateSession m _ _)
  | notifyPeerDown nodeId => exact h.notifyPeerDown nodeId
  | rtoTick now => exact h.within (.rtoTick m now)

theorem step (h : m.Tracked) {log : List InboundFrame} {input : Input}
    (hnone : m.NoneSuperseded log input) : (m.step input).1.Tracked := by
  cases input with
  | operate op => exact h.operate hnone
  | send now remoteNode frame isFireAndForget opaqueId => exact h.within (.send m _ _ _ _ _)
  | handleIncoming now raw => exact h.within (.handleIncoming m now raw)

end Tracked

/-- As long as a new epoch is opened only after the active session of the old
one is gone, every peer has at most one active session, the recorded one, and
nothing of an older epoch is resent. -/
theorem one_live_session (localNodeId : UInt16) (config : TransportConfig) {inputs : List Input}
    (hinputs : Runs.Meets step NoneSuperseded (new localNodeId config) [] inputs) :
    (Runs.run step (new localNodeId config) inputs).1.OneLive := by
  have hinit : (new localNodeId config).Tracked := by
    constructor <;> intro key session hlookup <;> cases hlookup
  have hrun := Runs.run_invariant (I := fun m _ => m.Tracked) (fun _ _ _ h hi => h.step hi) hinit
    hinputs
  exact hrun.oneLive

theorem noneSuperseded_of_entries {m : TransportManager} {log : List InboundFrame}
    {remoteNode : UInt16} {epoch initialCredits : UInt32}
    (h : ∀ e ∈ m.sessions.entries, e.1.remoteNode = remoteNode → e.1.epoch ≠ epoch →
      e.2.state ≠ .active) :
    m.NoneSuperseded log (.operate (.createSession remoteNode epoch initialCredits)) :=
  fun key session hlookup => h ⟨key, session⟩ (AList.mem_lookup_iff.mp hlookup)

theorem one_live_session_invalidated :
    (Runs.run step (new 1 ⟨200, 8⟩)
      [.operate (.createSession 2 100 64), .operate (.invalidateSession 2 100),
        .operate (.createSession 2 200 64), .operate (.notifyPeerDown 2),
        .operate (.createSession 2 300 64), .operate (.rtoTick 0)]).1.OneLive :=
  one_live_session 1 ⟨200, 8⟩
    ⟨noneSuperseded_of_entries (by decide), trivial, noneSuperseded_of_entries (by decide), trivial,
      noneSuperseded_of_entries (by decide), trivial, trivial⟩

/-- The peer restarts under epoch 200: the session of epoch 100 stays active
next to the new one. -/
theorem superseded_session_stays_active :
    ¬ (Runs.run step (new 1 ⟨200, 8⟩)
      [.operate (.createSession 2 100 64), .operate (.createSession 2 200 64)]).1.OneLive := by
  intro h
  have hkey := h.unique ⟨1, 2, 100⟩ (.new 1 2 100 200 8 64) ⟨1, 2, 200⟩ (.new 1 2 200 200 8 64)
    rfl rfl rfl rfl rfl
  exact absurd hkey (by decide)

end TransportManager

/-! ## Frames of an earlier incarnation -/

/-- Bytes in flight from a peer, with the epoch the peer had when it sent them.
The bytes do not carry the epoch. -/
structure SentFrame where
  epoch : UInt32
  raw : List UInt8
  deriving DecidableEq, Repr

/-- A receiving manager and the frames on their way to it. -/
structure Inbox where
  manager : TransportManager
  inFlight : Multiset SentFrame

/-- An arrival: the manager it found and the frames handed to the engine. -/
structure Arrival where
  sent : SentFrame
  found : TransportManager
  handed : List InboundFrame

namespace Inbox

open Network

inductive Input
  | operate (op : TransportManager.Operation)
  | peerSends (f : SentFrame)
  | fault (f : Fault SentFrame)
  | arrive (now : Instant) (f : SentFrame)

def start (manager : TransportManager) : Inbox := ⟨manager, 0⟩

def step (b : Inbox) : Input → Inbox × List Arrival
  | .operate op => ({ b with manager := b.manager.operate op }, [])
  | .peerSends f => ({ b with inFlight := f ::ₘ b.inFlight }, [])
  | .fault f => ({ b with inFlight := f.apply b.inFlight }, [])
  | .arrive now f =>
    if f ∈ b.inFlight then
      let (manager, handed) := b.manager.handleIncoming now f.raw
      (⟨manager, b.inFlight.erase f⟩, [⟨f, b.manager, handed⟩])
    else (b, [])

theorem handed_eq (b : Inbox) (inputs : List Input) :
    ∀ a ∈ (Runs.run step b inputs).2, ∃ now,
      a.handed = (a.found.handleIncoming now a.sent.raw).2 := by
  induction inputs generalizing b with
  | nil => simp
  | cons input inputs ih =>
    intro a ha
    rw [Runs.run_cons] at ha
    rcases List.mem_append.mp ha with hfirst | hrest
    · cases input with
      | operate op => simp [step] at hfirst
      | peerSends f => simp [step] at hfirst
      | fault f => simp [step] at hfirst
      | arrive now f =>
        simp only [step] at hfirst
        split_ifs at hfirst
        · rw [List.mem_singleton.mp hfirst]
          exact ⟨now, rfl⟩
        · simp at hfirst
    · exact ih _ a hrest

end Inbox

namespace Arrival

/-- The receiver has a session for the incarnation that sent a frame of `peer`. -/
def HasSession (a : Arrival) (peer : UInt16) : Prop :=
  (a.found.sessions.lookup (a.found.keyFor peer a.sent.epoch)).isSome = true

/-- Every sequenced frame handed up belongs to an incarnation with a session. -/
def OwnIncarnation (a : Arrival) : Prop :=
  ∀ g ∈ a.handed, g.seq ≠ 0 → a.HasSession g.header.srcNode

instance (a : Arrival) (peer : UInt16) : Decidable (a.HasSession peer) :=
  inferInstanceAs (Decidable (_ = _))

instance (a : Arrival) : Decidable a.OwnIncarnation :=
  inferInstanceAs (Decidable (∀ g ∈ a.handed, _))

end Arrival

/-- The session that the recorded epoch selects takes the frame: it is active
and the number is the expected one, or a duplicate of a request. -/
def ReliableSession.Takes (session : ReliableSession) (seq : ℕ) (verb : Verb) : Prop :=
  session.state = .active ∧ (session.dedup.check seq = .inOrder ∨
    (session.dedup.check seq = .alreadySeen ∧ isRequestVerb verb = true))

namespace TransportManager

theorem handedUp_eq_nil_iff (session : ReliableSession) (seq : ℕ) (frame : InboundFrame) :
    handedUp (session.receiveFrame seq).2 frame ≠ [] ↔
      session.dedup.check seq = .inOrder ∨
        (session.dedup.check seq = .alreadySeen ∧ isRequestVerb frame.ext.verb = true) := by
  unfold ReliableSession.receiveFrame
  dsimp only
  cases session.dedup.check seq <;> simp [handedUp]

theorem handleDataFrame_handed_iff (m : TransportManager) {header : FrameHeader}
    (ext : DataExtHeader) (payload : List UInt8) (hseq : header.streamSeq.toNat ≠ 0) :
    (m.handleDataFrame header ext payload).2 ≠ [] ↔
      m.sessions.lookup (m.currentKey header.srcNode) = none ∨
      ∃ session, m.sessions.lookup (m.currentKey header.srcNode) = some session ∧
        session.Takes header.streamSeq.toNat ext.verb := by
  unfold handleDataFrame
  dsimp only
  rw [if_neg hseq]
  cases hlookup : m.sessions.lookup (m.currentKey header.srcNode) with
  | none => simp
  | some session =>
    by_cases hactive : session.state = .active
    · simp [hactive, ReliableSession.Takes, handedUp_eq_nil_iff]
    · simp [hactive, ReliableSession.Takes]

end TransportManager

/-- A frame sent under an epoch for which the receiver has no session is handed
up exactly if there is no session under the recorded epoch either, or if the
session of that other epoch takes it. -/
theorem stale_frame_handed_iff (localNodeId : UInt16) (config : TransportConfig)
    (inputs : List Inbox.Input) :
    ∀ a ∈ (Runs.run Inbox.step (Inbox.start (.new localNodeId config)) inputs).2,
    ∀ header ext payload, decodeFrame a.sent.raw = .ok (header, some ext, payload) →
      header.frameType = .data → header.streamSeq.toNat ≠ 0 → ¬ a.HasSession header.srcNode →
      (a.handed ≠ [] ↔
        a.found.sessions.lookup (a.found.currentKey header.srcNode) = none ∨
        ∃ session, a.found.sessions.lookup (a.found.currentKey header.srcNode) = some session ∧
          (a.found.currentKey header.srcNode).epoch ≠ a.sent.epoch ∧
          session.Takes header.streamSeq.toNat ext.verb) := by
  intro a ha header ext payload hraw htype hseq hnone
  obtain ⟨now, hnow⟩ := Inbox.handed_eq _ inputs a ha
  have hdata : a.handed = (a.found.handleDataFrame header ext payload).2 := by
    rw [hnow, TransportManager.handleIncoming, hraw]
    simp only [htype]
  rw [hdata, a.found.handleDataFrame_handed_iff ext payload hseq]
  constructor
  · rintro (hempty | ⟨session, hlookup, htakes⟩)
    · exact Or.inl hempty
    · refine Or.inr ⟨session, hlookup, ?_, htakes⟩
      intro hepoch
      apply hnone
      rw [Arrival.HasSession, ← hepoch]
      exact Option.isSome_iff_exists.mpr ⟨session, hlookup⟩
  · rintro (hempty | ⟨session, hlookup, -, htakes⟩)
    · exact Or.inl hempty
    · exact Or.inr ⟨session, hlookup, htakes⟩

/-- A write that peer 2 numbers 1 and sends under epoch 100. -/
def staleWrite : SentFrame :=
  let f := peerFrame 1 .write [7]
  ⟨100, encodeFrame f.header (some f.ext) f.payload⟩

theorem decodeFrame_staleWrite :
    decodeFrame staleWrite.raw = .ok ((peerFrame 1 .write [7]).header,
      some (peerFrame 1 .write [7]).ext, [7]) :=
  decodeFrame_encode_data ⟨rfl, rfl, by decide⟩ rfl ⟨by decide, by decide⟩ _

/-- The write arrives after the peer came back under epoch 200. -/
def restartInputs : List Inbox.Input :=
  [.operate (.createSession 2 100 64), .peerSends staleWrite, .operate (.notifyPeerDown 2),
    .operate (.createSession 2 200 64), .arrive 0 staleWrite]

theorem stale_frame_handed_iff_restarted :
    let log := (Runs.run Inbox.step (Inbox.start (.new 1 ⟨200, 8⟩)) restartInputs).2
    log.length = 1 ∧ ∀ a ∈ log, a.handed ≠ [] ↔
      a.found.sessions.lookup (a.found.currentKey 2) = none ∨
      ∃ session, a.found.sessions.lookup (a.found.currentKey 2) = some session ∧
        (a.found.currentKey 2).epoch ≠ a.sent.epoch ∧ session.Takes 1 .write := by
  intro log
  refine ⟨by decide, ?_⟩
  intro a ha
  have hlog : ∀ a ∈ log, a.sent = staleWrite ∧ ¬ a.HasSession 2 := by decide
  obtain ⟨hsent, hnone⟩ := hlog a ha
  have hraw := decodeFrame_staleWrite
  rw [← hsent] at hraw
  exact stale_frame_handed_iff 1 ⟨200, 8⟩ restartInputs a ha _ _ _ hraw rfl (by decide) hnone

/-- The peer is torn down, and perhaps back under epoch 200, before its write of
epoch 100 arrives: the write is handed up in both cases. -/
theorem stale_write_handed :
    (¬ ∀ a ∈ (Runs.run Inbox.step (Inbox.start (.new 1 ⟨200, 8⟩))
        [.operate (.createSession 2 100 64), .peerSends staleWrite, .operate (.notifyPeerDown 2),
          .arrive 0 staleWrite]).2, a.OwnIncarnation) ∧
    ¬ ∀ a ∈ (Runs.run Inbox.step (Inbox.start (.new 1 ⟨200, 8⟩))
        restartInputs).2, a.OwnIncarnation := by
  constructor <;> decide

end UniBus.Transport
