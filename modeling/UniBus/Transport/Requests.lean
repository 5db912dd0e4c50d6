import UniBus.Transport.Epochs
import UniBus.Transport.Sending

/-!
# Requests in the retransmit queues

A request stays in its session's retransmit queue until it is completed; an
acknowledgement does not remove it. Most operations of the manager kill no session and
queue no request; those that end a session drop what is in its queue.
-/
namespace UniBus.Transport

open Wire

namespace ReliableSession

variable (s : ReliableSession)

def requestsOf (entries : List RetransmitEntry) : List UInt64 :=
  (entries.filter fun e => !e.isFireAndForget).map RetransmitEntry.opaqueId

def requests : List UInt64 := requestsOf s.retransmitQueue

theorem requestsOf_cons (entry : RetransmitEntry) (entries : List RetransmitEntry) :
    requestsOf (entry :: entries) =
      if entry.isFireAndForget then requestsOf entries
      else entry.opaqueId :: requestsOf entries := by
  cases hkind : entry.isFireAndForget <;> simp [requestsOf, hkind]

/-- Some entry is due and has used up its retries. -/
def Exhausted (now : Instant) : Prop :=
  ∃ entry ∈ s.retransmitQueue, entry.rtoDeadline ≤ now ∧ s.maxRetries < entry.retryCount + 1

/-- The session lives on as before, with no new request. -/
structure Eases (s s' : ReliableSession) : Prop where
  state : s'.state = s.state
  requests : ∀ opaqueId ∈ s'.requests, opaqueId ∈ s.requests

theorem eases_of_queue {s s' : ReliableSession} (hstate : s'.state = s.state)
    (hqueue : s'.retransmitQueue = s.retransmitQueue) : Eases s s' := by
  refine ⟨hstate, ?_⟩
  rw [requests, hqueue]
  exact fun _ => id

theorem Eases.refl (s : ReliableSession) : Eases s s := ⟨rfl, fun _ => id⟩

theorem Eases.trans {s s' s'' : ReliableSession} (h : Eases s s') (h' : Eases s' s'') :
    Eases s s'' :=
  ⟨h'.state.trans h.state, fun opaqueId ho => h.requests opaqueId (h'.requests opaqueId ho)⟩

theorem requests_assignSeq (now : Instant) (frame : List UInt8) (isFireAndForget : Bool)
    (opaqueId : UInt64) :
    (s.assignSeq now frame isFireAndForget opaqueId).1.requests =
      s.requests ++ if isFireAndForget then [] else [opaqueId] := by
  cases isFireAndForget <;> simp [requests, requestsOf, assignSeq]

theorem requests_completeRequest (opaqueId : UInt64) :
    (s.completeRequest opaqueId).requests = s.requests.erase opaqueId := by
  simp only [requests, requestsOf, completeRequest]
  induction s.retransmitQueue with
  | nil => rfl
  | cons e rest ih =>
    cases hkind : e.isFireAndForget with
    | true => simp [hkind, ih]
    | false =>
      by_cases ho : e.opaqueId = opaqueId
      · simp [hkind, ho]
      · simp [hkind, ho, ih]

theorem requests_processAck (now : Instant) (ack : AckPayload) :
    (s.processAck now ack).1.requests = s.requests := by
  rw [requests, requestsOf, processAck_retransmitQueue, List.filter_filter, requests, requestsOf]
  congr 1
  apply List.filter_congr
  intro e _
  cases hkind : e.isFireAndForget <;> simp [ackedBy, hkind]

theorem eases_receiveFrame (seq : ℕ) : Eases s (s.receiveFrame seq).1 := by
  apply eases_of_queue (s.receiveFrame_state seq)
  exact s.receiveFrame_retransmitQueue seq

theorem eases_handleAck (now : Instant) (ack : AckPayload) :
    Eases s ((s.processAckForFastRetransmit ack).1.processAck now ack).1 := by
  have hcounted := s.sameReceiver_processAckForFastRetransmit ack
  have hacked := (s.processAckForFastRetransmit ack).1.sameReceiver_processAck now ack
  refine ⟨hacked.state.trans hcounted.state, ?_⟩
  rw [requests_processAck, requests, processAckForFastRetransmit_retransmitQueue]
  exact fun _ => id

/-! ## The timeout check -/

theorem scanRto_kill_iff (now : Instant) (rtoBaseMs maxRetries : ℕ)
    (queue : List RetransmitEntry) :
    (scanRto now rtoBaseMs maxRetries queue).2.2 = true ↔
      ∃ entry ∈ queue, entry.rtoDeadline ≤ now ∧ maxRetries < entry.retryCount + 1 := by
  induction queue with
  | nil => simp [scanRto]
  | cons entry rest ih =>
    rw [List.exists_mem_cons_iff]
    unfold scanRto
    dsimp only
    split_ifs with hdue hexhausted
    · exact iff_of_true rfl (Or.inl ⟨hdue, hexhausted⟩)
    · rw [ih, or_iff_right]
      exact fun h => hexhausted h.2
    · rw [ih, or_iff_right]
      exact fun h => hdue h.1

theorem requestsOf_scanRto (now : Instant) (rtoBaseMs maxRetries : ℕ)
    (queue : List RetransmitEntry) :
    requestsOf (scanRto now rtoBaseMs maxRetries queue).1 = requestsOf queue := by
  induction queue with
  | nil => rfl
  | cons entry rest ih =>
    unfold scanRto
    dsimp only
    split_ifs
    · rw [requestsOf_cons, requestsOf_cons]
    · rw [requestsOf_cons, requestsOf_cons, ih]
    · rw [requestsOf_cons, requestsOf_cons, ih]

theorem tick_of_dead {now : Instant} (h : s.state = .dead) : (s.tick now).1 = s := by
  rw [tick, if_pos (by rw [h]; nofun)]

theorem tick_of_active {now : Instant} (h : s.state = .active) :
    (s.tick now).1 = (s.checkRto now).1 := by
  rw [tick, if_neg (not_ne_iff.mpr h)]
  dsimp only
  split_ifs <;> rfl

/-- A round of the retransmission task kills a session that is out of retries, with all its
requests. -/
theorem tick_of_exhausted {now : Instant} (hactive : s.state = .active) (h : s.Exhausted now) :
    (s.tick now).1.state = .dead ∧ (s.tick now).1.requests = [] := by
  have hkill := (scanRto_kill_iff now s.rtoBaseMs s.maxRetries s.retransmitQueue).mpr h
  rw [s.tick_of_active hactive, checkRto, if_neg (not_ne_iff.mpr hactive)]
  dsimp only
  rw [if_pos hkill]
  exact ⟨rfl, rfl⟩

theorem tick_of_not_exhausted {now : Instant} (hactive : s.state = .active)
    (h : ¬ s.Exhausted now) :
    (s.tick now).1.state = .active ∧ (s.tick now).1.requests = s.requests := by
  have hkill : ¬ (scanRto now s.rtoBaseMs s.maxRetries s.retransmitQueue).2.2 = true :=
    fun hkill => h ((scanRto_kill_iff now s.rtoBaseMs s.maxRetries s.retransmitQueue).mp hkill)
  have hqueue := requestsOf_scanRto now s.rtoBaseMs s.maxRetries s.retransmitQueue
  rw [s.tick_of_active hactive, checkRto, if_neg (not_ne_iff.mpr hactive)]
  dsimp only
  rw [if_neg hkill]
  split_ifs
  · exact ⟨hactive, hqueue⟩
  · exact ⟨hactive, hqueue⟩

theorem requests_tick {now : Instant} {opaqueId : UInt64} (h : opaqueId ∈ (s.tick now).1.requests) :
    opaqueId ∈ s.requests := by
  cases hstate : s.state with
  | dead => rwa [s.tick_of_dead hstate] at h
  | active =>
    by_cases hexhausted : s.Exhausted now
    · rw [(s.tick_of_exhausted hstate hexhausted).2] at h
      cases h
    · rwa [(s.tick_of_not_exhausted hstate hexhausted).2] at h

end ReliableSession

namespace TransportManager

/-- The step from `m` to `m'` kills no session and queues no request. -/
structure Quiet (m m' : TransportManager) : Prop where
  kept : ∀ key s, m.sessions.lookup key = some s →
    ∃ s', m'.sessions.lookup key = some s' ∧ s.Eases s'
  opened : ∀ key s', m'.sessions.lookup key = some s' → m.sessions.lookup key = none →
    s'.requests = []

namespace Quiet

variable {m m' : TransportManager}

theorem requests (h : Quiet m m') {key : SessionKey} {s' : ReliableSession}
    (hlookup : m'.sessions.lookup key = some s') {opaqueId : UInt64}
    (ho : opaqueId ∈ s'.requests) :
    ∃ s, m.sessions.lookup key = some s ∧ opaqueId ∈ s.requests := by
  cases hbefore : m.sessions.lookup key with
  | none =>
    rw [h.opened key s' hlookup hbefore] at ho
    cases ho
  | some s =>
    obtain ⟨s'', hlookup', heases⟩ := h.kept key s hbefore
    cases hlookup.symm.trans hlookup'
    exact ⟨s, rfl, heases.requests opaqueId ho⟩

theorem of_sessions_eq (hsessions : m'.sessions = m.sessions) : Quiet m m' := by
  constructor
  · intro key s hlookup
    exact ⟨s, by rw [hsessions, hlookup], .refl s⟩
  · intro key s' hlookup hnone
    rw [hsessions, hnone] at hlookup
    cases hlookup

theorem refl (m : TransportManager) : Quiet m m := of_sessions_eq rfl

theorem trans {m'' : TransportManager} (h : Quiet m m') (h' : Quiet m' m'') : Quiet m m'' := by
  constructor
  · intro key s hlookup
    obtain ⟨s', hlookup', heases⟩ := h.kept key s hlookup
    obtain ⟨s'', hlookup'', heases'⟩ := h'.kept key s' hlookup'
    exact ⟨s'', hlookup'', heases.trans heases'⟩
  · intro key s'' hlookup'' hnone
    rw [List.eq_nil_iff_forall_not_mem]
    intro opaqueId ho
    obtain ⟨s', hlookup', ho'⟩ := h'.requests hlookup'' ho
    rw [h.opened key s' hlookup' hnone] at ho'
    cases ho'

theorem of_touches (h : m.Touches ReliableSession.Eases m') : Quiet m m' := by
  constructor
  · intro key s hlookup
    exact h.after .refl hlookup
  · intro key s' hlookup hnone
    obtain ⟨s, hbefore, -⟩ := h.before .refl hlookup
    cases hnone.symm.trans hbefore

theorem sendFrameToPeer (m : TransportManager) (node : UInt16) (data : List UInt8) :
    Quiet m (m.sendFrameToPeer node data) :=
  of_sessions_eq (m.sendFrameToPeer_sessions node data)

theorem markExecuted (m : TransportManager) (node : UInt16) (seq : ℕ) :
    Quiet m (m.markExecuted node seq) := by
  apply of_touches (.modifySession m node _)
  intro s
  unfold ReliableSession.markExecuted
  dsimp only
  split_ifs <;> exact ReliableSession.eases_of_queue rfl rfl

theorem completeRequest (m : TransportManager) (node : UInt16) (opaqueId : UInt64) :
    Quiet m (m.completeRequest node opaqueId) := by
  apply of_touches (.modifySession m node _)
  intro s
  refine ⟨rfl, ?_⟩
  rw [ReliableSession.requests_completeRequest]
  exact fun _ => List.mem_of_mem_erase

theorem readCacheInsert (m : TransportManager) (now : Instant) (node : UInt16) (key : CacheKey)
    (response : List UInt8) : Quiet m (m.readCacheInsert now node key response) :=
  of_touches (.modifySession m node fun _ => ReliableSession.eases_of_queue rfl rfl)

theorem readCacheGet (m : TransportManager) (now : Instant) (node : UInt16) (key : CacheKey) :
    Quiet m (m.readCacheGet now node key).1 := by
  rw [m.readCacheGet_eq]
  exact of_touches (.modifySession m node fun _ => ReliableSession.eases_of_queue rfl rfl)

theorem createSession {remoteNode : UInt16} {epoch initialCredits : UInt32}
    (h : m.createSession remoteNode epoch initialCredits = .ok m') : Quiet m m' := by
  unfold TransportManager.createSession at h
  dsimp only at h
  split_ifs at h with hmem
  cases h
  constructor
  · intro key s hlookup
    have hkey : key ≠ m.keyFor remoteNode epoch := by
      rintro rfl
      exact hmem (AList.lookup_isSome.mp (by rw [hlookup]; rfl))
    exact ⟨s, by rw [AList.lookup_insert_ne hkey, hlookup], .refl s⟩
  · intro key s' hlookup hnone
    by_cases hkey : key = m.keyFor remoteNode epoch
    · subst hkey
      rw [AList.lookup_insert] at hlookup
      cases hlookup
      rfl
    · rw [AList.lookup_insert_ne hkey, hnone] at hlookup
      cases hlookup

theorem post (m : TransportManager) (now : Instant) (node : UInt16) (frame : List UInt8)
    (opaqueId : UInt64) : Quiet m (m.send now node frame true opaqueId).1 := by
  apply of_touches ((Touches.send m now node frame true opaqueId).mono _)
  rintro s s' ⟨hactive, paid, hcredit, rfl⟩
  obtain ⟨-, rfl⟩ := ReliableSession.consumeCredit_ok hcredit
  refine ⟨rfl, ?_⟩
  rw [ReliableSession.requests_assignSeq, if_pos rfl, List.append_nil]
  exact fun _ => id

theorem handleIncoming (m : TransportManager) (now : Instant) (raw : List UInt8) :
    Quiet m (m.handleIncoming now raw).1 := by
  apply of_touches ((Touches.handleIncoming m now raw).mono _)
  intro s s' hreceived
  cases hreceived with
  | taken seq => exact s.eases_receiveFrame seq
  | acknowledged seq hasGap =>
    exact (s.eases_receiveFrame seq).trans (ReliableSession.eases_of_queue rfl rfl)
  | acked now ack => exact s.eases_handleAck now ack
  | credited credits => exact ReliableSession.eases_of_queue rfl rfl

theorem grantCredits (m : TransportManager) (node : UInt16) (count : UInt32) :
    Quiet m (m.grantCredits node count) := by
  unfold TransportManager.grantCredits
  split
  · exact refl m
  · rename_i key s hfind
    have hlookup := (findSession_eq_some hfind).1
    have hset : ∀ granted : UInt32,
        m.Touches ReliableSession.Eases (m.setSession key { s with creditsToGrant := granted }) :=
      fun granted => Touches.setSession hlookup (ReliableSession.eases_of_queue rfl rfl)
    dsimp only
    split_ifs
    · exact of_touches ((hset 0).sendFrameToPeer _ _)
    · exact of_touches (hset _)

end Quiet

/-! ## Operations that end sessions -/

def Ended (m : TransportManager) (key : SessionKey) : Prop :=
  ∀ s, m.sessions.lookup key = some s → s.state = .dead

/-- The operation ends the active session `s` that stands under the key. -/
def Operation.Ends (m : TransportManager) (key : SessionKey) (s : ReliableSession) :
    Operation → Prop
  | .createSession .. => False
  | .invalidateSession remoteNode oldEpoch => key = m.keyFor remoteNode oldEpoch
  | .notifyPeerDown nodeId => key.remoteNode = nodeId
  | .rtoTick now => s.Exhausted now

variable {m : TransportManager} {key : SessionKey} {s : ReliableSession}

theorem Quiet.not_ended {m' : TransportManager} (h : Quiet m m')
    (hlookup : m.sessions.lookup key = some s) (hactive : s.state = .active) : ¬ m'.Ended key := by
  intro hended
  obtain ⟨s', hlookup', heases⟩ := h.kept key s hlookup
  have hdead := hended s' hlookup'
  rw [heases.state, hactive] at hdead
  cases hdead

theorem quiet_create (m : TransportManager) (remoteNode : UInt16) (epoch credits : UInt32) :
    Quiet m (m.operate (.createSession remoteNode epoch credits)) := by
  unfold operate
  dsimp only
  split
  · rename_i m' hcreate
    exact .createSession hcreate
  · exact .refl m

theorem lookup_invalidateSession (m : TransportManager) (remoteNode : UInt16)
    (oldEpoch : UInt32) (key : SessionKey) :
    (m.invalidateSession remoteNode oldEpoch).1.sessions.lookup key =
      if key = m.keyFor remoteNode oldEpoch then none else m.sessions.lookup key := by
  unfold invalidateSession
  dsimp only
  split
  · split_ifs with hkey
    · rw [hkey, AList.lookup_erase]
    · exact AList.lookup_erase_ne hkey
  · rename_i hnone
    split_ifs with hkey
    · rw [hkey, hnone]
    · rfl

theorem ended_operate_iff (hlookup : m.sessions.lookup key = some s) (hactive : s.state = .active)
    (op : Operation) : (m.operate op).Ended key ↔ op.Ends m key s := by
  have hlive : ¬ m.Ended key := (Quiet.refl m).not_ended hlookup hactive
  cases op with
  | createSession remoteNode epoch credits =>
    exact iff_of_false ((quiet_create m remoteNode epoch credits).not_ended hlookup hactive) id
  | invalidateSession remoteNode oldEpoch =>
    simp only [operate, Operation.Ends, Ended, lookup_invalidateSession]
    by_cases hkey : key = m.keyFor remoteNode oldEpoch
    · simp [hkey]
    · simp only [hkey, if_false, iff_false]
      exact hlive
  | notifyPeerDown nodeId =>
    simp only [operate, Operation.Ends, Ended, notifyPeerDown_lookup]
    by_cases hnode : key.remoteNode = nodeId
    · simp [hnode]
    · simp only [hnode, if_false, iff_false]
      exact hlive
  | rtoTick now =>
    simp only [operate, Operation.Ends, Ended, rtoTick_lookup, hlookup, Option.map_some,
      Option.some.injEq, forall_eq']
    constructor
    · intro hdead
      by_contra hretries
      rw [(s.tick_of_not_exhausted hactive hretries).1] at hdead
      cases hdead
    · intro hexhausted
      exact (s.tick_of_exhausted hactive hexhausted).1

theorem requests_operate (op : Operation) {s' : ReliableSession}
    (hlookup : (m.operate op).sessions.lookup key = some s') {opaqueId : UInt64}
    (ho : opaqueId ∈ s'.requests) :
    ∃ s, m.sessions.lookup key = some s ∧ opaqueId ∈ s.requests := by
  cases op with
  | createSession remoteNode epoch credits =>
    exact (quiet_create m remoteNode epoch credits).requests hlookup ho
  | invalidateSession remoteNode oldEpoch =>
    rw [operate, lookup_invalidateSession] at hlookup
    split_ifs at hlookup
    exact ⟨s', hlookup, ho⟩
  | notifyPeerDown nodeId =>
    rw [operate, notifyPeerDown_lookup] at hlookup
    split_ifs at hlookup
    exact ⟨s', hlookup, ho⟩
  | rtoTick now =>
    rw [operate, rtoTick_lookup] at hlookup
    obtain ⟨s, hbefore, rfl⟩ := Option.map_eq_some_iff.mp hlookup
    exact ⟨s, hbefore, s.requests_tick ho⟩

/-! ## Requests queued for a peer -/

/-- Some session with the peer has the request in its retransmit queue. -/
def Queued (m : TransportManager) (peer : UInt16) (opaqueId : UInt64) : Prop :=
  ∃ key s, m.sessions.lookup key = some s ∧ key.remoteNode = peer ∧ opaqueId ∈ s.requests

variable {peer : UInt16} {opaqueId : UInt64}

theorem Quiet.queued {m' : TransportManager} (h : Quiet m m') (hqueued : m'.Queued peer opaqueId) :
    m.Queued peer opaqueId := by
  obtain ⟨key, s', hlookup, hnode, ho⟩ := hqueued
  obtain ⟨s, hbefore, ho'⟩ := h.requests hlookup ho
  exact ⟨key, s, hbefore, hnode, ho'⟩

theorem queued_of_operate {op : Operation} (hqueued : (m.operate op).Queued peer opaqueId) :
    m.Queued peer opaqueId := by
  obtain ⟨key, s', hlookup, hnode, ho⟩ := hqueued
  obtain ⟨s, hbefore, ho'⟩ := requests_operate op hlookup ho
  exact ⟨key, s, hbefore, hnode, ho'⟩

theorem queued_send_iff (m : TransportManager) (now : Instant) (node : UInt16)
    (frame : List UInt8) (sent : UInt64) :
    (m.send now node frame false sent).1.Queued peer opaqueId ↔
      m.Queued peer opaqueId ∨ m.CanSend node ∧ peer = node ∧ opaqueId = sent := by
  by_cases hcan : m.CanSend node
  · obtain ⟨key, session, hfind, hactive, hcredit⟩ := id hcan
    obtain ⟨hlookup, hnode⟩ := findSession_eq_some hfind
    have hsessions := (sends_of_canSend now frame false sent hfind hactive hcredit).sessions
    have hrequests := ReliableSession.requests_assignSeq
      { session with availableCredits := session.availableCredits - 1 } now frame false sent
    rw [Queued, hsessions]
    constructor
    · rintro ⟨key', s', hlookup', hpeer, ho⟩
      by_cases hkey : key' = key
      · subst hkey
        rw [AList.lookup_insert, Option.some.injEq] at hlookup'
        rw [← hlookup', hrequests, List.mem_append] at ho
        rcases ho with hold | hnew
        · exact Or.inl ⟨key', session, hlookup, hpeer, hold⟩
        · exact Or.inr ⟨hcan, hpeer.symm.trans hnode, List.mem_singleton.mp hnew⟩
      · rw [AList.lookup_insert_ne hkey] at hlookup'
        exact Or.inl ⟨key', s', hlookup', hpeer, ho⟩
    · rintro (⟨key', s', hlookup', hpeer, ho⟩ | ⟨-, rfl, rfl⟩)
      · by_cases hkey : key' = key
        · subst hkey
          cases hlookup.symm.trans hlookup'
          refine ⟨key', _, AList.lookup_insert _, hpeer, ?_⟩
          rw [hrequests]
          exact List.mem_append_left _ ho
        · exact ⟨key', s', (AList.lookup_insert_ne hkey).trans hlookup', hpeer, ho⟩
      · refine ⟨key, _, AList.lookup_insert _, hnode, ?_⟩
        rw [hrequests]
        exact List.mem_append_right _ (List.mem_singleton.mpr rfl)
  · rw [(send_of_not_canSend now frame false sent hcan).1]
    simp [hcan]

theorem mem_erase_self_iff {ids : List UInt64} :
    opaqueId ∈ ids.erase opaqueId ↔ 2 ≤ ids.count opaqueId := by
  rw [← List.count_pos_iff, List.count_erase_self]
  omega

theorem queued_completeRequest_iff (m : TransportManager) (peer : UInt16) (opaqueId : UInt64) :
    (m.completeRequest peer opaqueId).Queued peer opaqueId ↔
      ∃ key s, m.sessions.lookup key = some s ∧ key.remoteNode = peer ∧ opaqueId ∈ s.requests ∧
        ¬ (m.findSession peer = some (key, s) ∧ s.requests.count opaqueId = 1) := by
  unfold completeRequest modifySession
  cases hfind : m.findSession peer with
  | none => simp [Queued]
  | some found =>
    obtain ⟨key, session⟩ := found
    have hlookup := (findSession_eq_some hfind).1
    simp only [Queued, setSession, Option.some.injEq, Prod.mk.injEq]
    constructor
    · rintro ⟨key', s', hlookup', hpeer, ho⟩
      by_cases hkey : key' = key
      · subst hkey
        rw [AList.lookup_insert, Option.some.injEq] at hlookup'
        rw [← hlookup', ReliableSession.requests_completeRequest, mem_erase_self_iff] at ho
        refine ⟨key', session, hlookup, hpeer, List.count_pos_iff.mp (by omega), ?_⟩
        rintro ⟨-, honce⟩
        omega
      · rw [AList.lookup_insert_ne hkey] at hlookup'
        exact ⟨key', s', hlookup', hpeer, ho, fun h => hkey h.1.1.symm⟩
    · rintro ⟨key', s', hlookup', hpeer, ho, hother⟩
      by_cases hkey : key' = key
      · subst hkey
        cases hlookup.symm.trans hlookup'
        refine ⟨key', _, AList.lookup_insert _, hpeer, ?_⟩
        rw [ReliableSession.requests_completeRequest, mem_erase_self_iff]
        have hmore : session.requests.count opaqueId ≠ 1 := fun honce => hother ⟨⟨rfl, rfl⟩, honce⟩
        have hsome := List.count_pos_iff.mpr ho
        omega
      · exact ⟨key', s', (AList.lookup_insert_ne hkey).trans hlookup', hpeer, ho⟩

/-- `notify_peer_down` returns the requests of all sessions of the peer, and no others. -/
theorem mem_requestsOf_notifyPeerDown (m : TransportManager) (nodeId : UInt16)
    (opaqueId : UInt64) :
    opaqueId ∈ ReliableSession.requestsOf (m.notifyPeerDown nodeId).2 ↔
      m.Queued nodeId opaqueId := by
  simp only [ReliableSession.requestsOf, notifyPeerDown, List.mem_map, List.mem_filter,
    List.mem_flatMap, ReliableSession.kill]
  constructor
  · rintro ⟨entry, ⟨⟨⟨key, s⟩, ⟨hmem, hnode⟩, hqueued⟩, hkind⟩, rfl⟩
    refine ⟨key, s, AList.mem_lookup_iff.mpr hmem, beq_iff_eq.mp hnode, ?_⟩
    exact List.mem_map_of_mem (List.mem_filter.mpr ⟨hqueued, hkind⟩)
  · rintro ⟨key, s, hlookup, hnode, ho⟩
    obtain ⟨entry, hentry, rfl⟩ := List.mem_map.mp ho
    obtain ⟨hqueued, hkind⟩ := List.mem_filter.mp hentry
    exact ⟨entry, ⟨⟨⟨key, s⟩, ⟨AList.mem_lookup_iff.mp hlookup, beq_iff_eq.mpr hnode⟩, hqueued⟩,
      hkind⟩, rfl⟩

end TransportManager
end UniBus.Transport
