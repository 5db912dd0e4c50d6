import UniBus.DataPlane.RemoteCalls

/-!
# Disconnecting a peer

`disconnect_peer` ends the sessions of one peer in every epoch, drops its channel and its
epoch, and fails the calls whose requests those sessions still had queued. Nothing that
belongs to another peer changes, as long as no identifier is shared between peers.
-/
namespace UniBus.DataPlane

open Wire Transport

namespace DataPlaneEngine

variable (e : DataPlaneEngine)

/-- A request to the peer has this identifier: it is queued for the peer, or a call to the
peer waits under it. -/
def Uses (peer : UInt16) (opaqueId : UInt64) : Prop :=
  e.transport.Queued peer opaqueId ∨
    ∃ call, e.pendingRequests.lookup opaqueId = some call ∧ call.peer = peer

/-- No identifier is shared by requests to two different peers. -/
def Unshared : Prop :=
  ∀ peer peer' opaqueId, e.Uses peer opaqueId → e.Uses peer' opaqueId → peer = peer'

/-- The peer is gone completely, its queued requests have failed, and the other peers have
everything they had. -/
structure Disconnected (nodeId : UInt16) (e' : DataPlaneEngine) (failed : List Completion) :
    Prop where
  sessions : ∀ key, key.remoteNode = nodeId → e'.transport.sessions.lookup key = none
  sender : e'.transport.peerSenders.lookup nodeId = none
  epoch : e'.transport.peerEpochs.lookup nodeId = none
  completed_iff : ∀ c, c ∈ failed ↔ e.transport.Queued nodeId c.opaqueId ∧
    e.pendingRequests.lookup c.opaqueId = some c.call ∧ c.response = ⟨4, []⟩
  once : (failed.map Completion.opaqueId).Nodup
  removed : ∀ opaqueId, e.transport.Queued nodeId opaqueId →
    e'.pendingRequests.lookup opaqueId = none
  kept : ∀ opaqueId, ¬ e.transport.Queued nodeId opaqueId →
    e'.pendingRequests.lookup opaqueId = e.pendingRequests.lookup opaqueId
  other_sessions : ∀ key, key.remoteNode ≠ nodeId →
    e'.transport.sessions.lookup key = e.transport.sessions.lookup key
  other_senders : ∀ peer, peer ≠ nodeId →
    e'.transport.peerSenders.lookup peer = e.transport.peerSenders.lookup peer
  other_epochs : ∀ peer, peer ≠ nodeId →
    e'.transport.peerEpochs.lookup peer = e.transport.peerEpochs.lookup peer
  other_pending : ∀ peer opaqueId, peer ≠ nodeId → e.Uses peer opaqueId →
    e'.pendingRequests.lookup opaqueId = e.pendingRequests.lookup opaqueId

/-- A call is taken from the table before its response is sent, so it gets only one. -/
theorem nodup_failRequests (pending : AList (fun _ : UInt64 => PendingCall))
    (entries : List RetransmitEntry) :
    ((failRequests pending entries).2.map Completion.opaqueId).Nodup := by
  induction entries generalizing pending with
  | nil => exact List.nodup_nil
  | cons entry entries ih =>
    rw [failRequests]
    split_ifs
    · exact ih pending
    · split
      · exact ih pending
      · rw [List.map_cons, List.nodup_cons]
        refine ⟨?_, ih _⟩
        intro hmem
        obtain ⟨c, hc, hid⟩ := List.mem_map.mp hmem
        have hlookup := ((mem_failRequests _ _ c).mp hc).2.1
        rw [hid, AList.lookup_erase] at hlookup
        cases hlookup

theorem lookup_disconnectPeer_of_queued {nodeId : UInt16} {opaqueId : UInt64}
    (h : e.transport.Queued nodeId opaqueId) :
    (e.disconnectPeer nodeId).1.pendingRequests.lookup opaqueId = none := by
  have hrequest := (TransportManager.mem_requestsOf_notifyPeerDown _ nodeId opaqueId).mpr h
  exact (lookup_failRequests _ _ opaqueId).trans (if_pos hrequest)

theorem lookup_disconnectPeer_of_not_queued {nodeId : UInt16} {opaqueId : UInt64}
    (h : ¬ e.transport.Queued nodeId opaqueId) :
    (e.disconnectPeer nodeId).1.pendingRequests.lookup opaqueId =
      e.pendingRequests.lookup opaqueId := by
  rw [← TransportManager.mem_requestsOf_notifyPeerDown] at h
  exact (lookup_failRequests _ _ opaqueId).trans (if_neg h)

/-- Disconnecting a peer is complete for the peer and without effect on all others. -/
theorem disconnect_peer_complete_and_local (hunshared : e.Unshared) (nodeId : UInt16) :
    e.Disconnected nodeId (e.disconnectPeer nodeId).1 (e.disconnectPeer nodeId).2 := by
  constructor
  · intro key hkey
    exact (e.transport.notifyPeerDown_lookup nodeId key).trans (if_pos hkey)
  · exact AList.lookup_erase _ _
  · exact AList.lookup_erase _ _
  · intro c
    rw [← TransportManager.mem_requestsOf_notifyPeerDown]
    exact mem_failRequests _ _ c
  · exact nodup_failRequests _ _
  · intro opaqueId hqueued
    exact e.lookup_disconnectPeer_of_queued hqueued
  · intro opaqueId hqueued
    exact e.lookup_disconnectPeer_of_not_queued hqueued
  · intro key hkey
    exact (e.transport.notifyPeerDown_lookup nodeId key).trans (if_neg hkey)
  · intro peer hpeer
    exact AList.lookup_erase_ne hpeer
  · intro peer hpeer
    exact AList.lookup_erase_ne hpeer
  · intro peer opaqueId hpeer huses
    apply e.lookup_disconnectPeer_of_not_queued
    intro hqueued
    exact hpeer (hunshared peer nodeId opaqueId huses (Or.inl hqueued))

/-- One request to peer 2, in a session of an earlier epoch, and one to peer 3. -/
def twoPeerEngine : DataPlaneEngine :=
  let asked (node : UInt16) (epoch : UInt32) (opaqueId : UInt64) : ReliableSession :=
    ((ReliableSession.new 1 node epoch 200 8 4).assignSeq 0 [] false opaqueId).1
  { callingEngine with
    transport := { callingEngine.transport with
      sessions := ((AList.insert ⟨1, 2, 4⟩ (asked 2 4 1) ∅).insert ⟨1, 2, 5⟩
        (.new 1 2 5 200 8 4)).insert ⟨1, 3, 1⟩ (asked 3 1 2) }
    pendingRequests := (AList.insert 1 ⟨2, .readReq⟩ ∅).insert 2 ⟨3, .atomicFaa⟩ }

theorem disconnect_peer_complete_and_local_two_peers :
    let e := twoPeerEngine
    e.Unshared ∧ e.Disconnected 2 (e.disconnectPeer 2).1 (e.disconnectPeer 2).2 ∧
      (e.disconnectPeer 2).2 = [⟨1, ⟨2, .readReq⟩, ⟨4, []⟩⟩] := by
  have huses : ∀ peer opaqueId, twoPeerEngine.Uses peer opaqueId →
      (peer = 2 ∧ opaqueId = 1) ∨ (peer = 3 ∧ opaqueId = 2) := by
    rintro peer opaqueId (⟨key, s, hlookup, rfl, ho⟩ | ⟨call, hlookup, rfl⟩)
    · have hmem := AList.mem_lookup_iff.mp hlookup
      change _ ∈ [_, _, _] at hmem
      simp only [List.mem_cons, List.not_mem_nil, or_false] at hmem
      rcases hmem with heq | heq | heq <;> cases heq
      · exact Or.inr ⟨rfl, List.mem_singleton.mp ho⟩
      · cases ho
      · exact Or.inl ⟨rfl, List.mem_singleton.mp ho⟩
    · have hmem := AList.mem_lookup_iff.mp hlookup
      change _ ∈ [_, _] at hmem
      simp only [List.mem_cons, List.not_mem_nil, or_false] at hmem
      rcases hmem with heq | heq <;> cases heq
      · exact Or.inr ⟨rfl, rfl⟩
      · exact Or.inl ⟨rfl, rfl⟩
  have hunshared : twoPeerEngine.Unshared := by
    intro peer peer' opaqueId h h'
    rcases huses peer opaqueId h with ⟨rfl, rfl⟩ | ⟨rfl, rfl⟩ <;>
      rcases huses peer' _ h' with ⟨rfl, hid⟩ | ⟨rfl, hid⟩
    · rfl
    · cases hid
    · cases hid
    · rfl
  exact ⟨hunshared, twoPeerEngine.disconnect_peer_complete_and_local hunshared 2, by decide⟩

end DataPlaneEngine
end UniBus.DataPlane
