import UniBus.Transport.Panics
import UniBus.Transport.Requests

/-!
# What the response caches hold

Nothing but the engine puts a response into the cache of a session. So a property that
every response has when it is put there is a property of all responses that are cached,
whatever else the transport does.
-/
namespace UniBus.Transport

variable {P : List UInt8 → Prop}

namespace ReadResponseCache

def Holds (P : List UInt8 → Prop) (c : ReadResponseCache) : Prop :=
  ∀ e ∈ c.entries.entries, P e.2.response

variable {c : ReadResponseCache}

theorem holds_insert {entries : AList (fun _ : CacheKey => CacheEntry)} {entry : CacheEntry}
    (h : ∀ e ∈ entries.entries, P e.2.response) (hentry : P entry.response) (key : CacheKey) :
    ∀ e ∈ (entries.insert key entry).entries, P e.2.response := by
  intro e he
  rw [AList.entries_insert] at he
  rcases List.mem_cons.mp he with rfl | hold
  · exact hentry
  · exact h e ((List.kerase_sublist key _).subset hold)

theorem Holds.erase (h : c.Holds P) (key : CacheKey) :
    Holds P { c with entries := c.entries.erase key } :=
  fun e he => h e ((List.kerase_sublist key _).subset he)

theorem Holds.get (h : c.Holds P) (now : Instant) (key : CacheKey) :
    (c.get now key).1.Holds P ∧ ∀ response, (c.get now key).2 = some response → P response := by
  unfold ReadResponseCache.get
  cases hlookup : c.entries.lookup key with
  | none => exact ⟨h, fun _ hsome => by cases hsome⟩
  | some entry =>
    have hentry : P entry.response := h ⟨key, entry⟩ (AList.mem_lookup_iff.mp hlookup)
    dsimp only
    split_ifs
    · exact ⟨h.erase key, fun _ hsome => by cases hsome⟩
    · constructor
      · apply holds_insert h
        exact hentry
      · rintro response hsome
        cases hsome
        exact hentry

theorem Holds.evictIfFull (h : c.Holds P) : c.evictIfFull.Holds P := by
  unfold ReadResponseCache.evictIfFull
  split_ifs
  · split
    · exact h.erase _
    · exact h
  · exact h

theorem Holds.insert (h : c.Holds P) (now : Instant) (key : CacheKey) {response : List UInt8}
    (hresponse : P response) : (c.insert now key response).Holds P := by
  have hexpired : (c.removeExpired now).Holds P := fun e he => h e (List.mem_filter.mp he).1
  exact holds_insert hexpired.evictIfFull hresponse key

end ReadResponseCache

theorem ReliableSession.tick_readCache (s : ReliableSession) (now : Instant) :
    (s.tick now).1.readCache = s.readCache := by
  have hcheck : (s.checkRto now).1.readCache = s.readCache := by
    rcases s.checkRto_cases now with ⟨-, heq⟩ | ⟨-, -, heq⟩ | ⟨-, -, -, heq⟩ | ⟨-, -, -, heq⟩
    all_goals simp [heq, onLoss]
  unfold tick
  dsimp only
  split_ifs
  · rfl
  · exact hcheck
  · exact hcheck

namespace TransportManager

def Caches (P : List UInt8 → Prop) (m : TransportManager) : Prop :=
  ∀ key s, m.sessions.lookup key = some s → s.readCache.Holds P

theorem caches_new (localNodeId : UInt16) (config : TransportConfig) :
    (new localNodeId config).Caches P := by
  intro key s hlookup
  cases hlookup

namespace Caches

variable {m m' : TransportManager}

section
variable (h : m.Caches P)
include h

theorem of_touches
    (htouches : m.Touches (fun s s' => s.readCache.Holds P → s'.readCache.Holds P) m') :
    m'.Caches P := by
  intro key s' hlookup
  obtain ⟨s, hbefore, hcache⟩ := htouches.before (fun _ => id) hlookup
  exact hcache (h key s hbefore)

theorem of_same (htouches : m.Touches (fun s s' => s'.readCache = s.readCache) m') :
    m'.Caches P := by
  apply h.of_touches (htouches.mono _)
  intro s s' hsame hs
  rwa [hsame]

theorem of_sessions_eq (hsessions : m'.sessions = m.sessions) : m'.Caches P := by
  intro key s hlookup
  rw [hsessions] at hlookup
  exact h key s hlookup

theorem handleIncoming (now : Instant) (raw : List UInt8) :
    (m.handleIncoming now raw).1.Caches P :=
  h.of_same (m.touches_handleIncoming_readCache now raw)

theorem send (now : Instant) (node : UInt16) (frame : List UInt8) (isFireAndForget : Bool)
    (opaqueId : UInt64) :
    (m.send now node frame isFireAndForget opaqueId).1.Caches P := by
  apply h.of_same ((Touches.send m now node frame isFireAndForget opaqueId).mono _)
  rintro s s' ⟨-, paid, hcredit, rfl⟩
  obtain ⟨-, rfl⟩ := ReliableSession.consumeCredit_ok hcredit
  rfl

theorem markExecuted (node : UInt16) (seq : ℕ) :
    (m.markExecuted node seq).Caches P := by
  apply h.of_same (.modifySession m node _)
  intro s
  unfold ReliableSession.markExecuted
  split_ifs <;> rfl

theorem completeRequest (node : UInt16) (opaqueId : UInt64) :
    (m.completeRequest node opaqueId).Caches P :=
  h.of_same (.modifySession m node fun _ => rfl)

theorem grantCredits (node : UInt16) (count : UInt32) :
    (m.grantCredits node count).Caches P := by
  unfold TransportManager.grantCredits
  split
  · exact h
  · rename_i key s hfind
    have hset : ∀ granted : UInt32,
        m.Touches (fun s s' => s'.readCache = s.readCache)
          (m.setSession key { s with creditsToGrant := granted }) :=
      fun granted => Touches.setSession (findSession_eq_some hfind).1 rfl
    dsimp only
    split_ifs
    · exact h.of_same ((hset 0).sendFrameToPeer _ _)
    · exact h.of_same (hset _)

theorem createSession {remoteNode : UInt16} {epoch initialCredits : UInt32}
    (hcreate : m.createSession remoteNode epoch initialCredits = .ok m') : m'.Caches P := by
  unfold TransportManager.createSession at hcreate
  dsimp only at hcreate
  split_ifs at hcreate
  cases hcreate
  intro key s hlookup
  by_cases hkey : key = m.keyFor remoteNode epoch
  · rw [hkey, AList.lookup_insert] at hlookup
    cases hlookup
    intro e he
    cases he
  · rw [AList.lookup_insert_ne hkey] at hlookup
    exact h key s hlookup

theorem notifyPeerDown (nodeId : UInt16) :
    (m.notifyPeerDown nodeId).1.Caches P := by
  intro key s hlookup
  rw [notifyPeerDown_lookup] at hlookup
  split_ifs at hlookup
  exact h key s hlookup

theorem operate (op : Operation) : (m.operate op).Caches P := by
  cases op with
  | createSession remoteNode epoch initialCredits =>
    unfold TransportManager.operate
    dsimp only
    split
    · rename_i m' hcreate
      exact h.createSession hcreate
    · exact h
  | invalidateSession remoteNode oldEpoch =>
    intro key s hlookup
    rw [TransportManager.operate, lookup_invalidateSession] at hlookup
    split_ifs at hlookup
    exact h key s hlookup
  | notifyPeerDown nodeId => exact h.notifyPeerDown nodeId
  | rtoTick now =>
    intro key s hlookup
    rw [TransportManager.operate, rtoTick_lookup] at hlookup
    obtain ⟨s, hbefore, rfl⟩ := Option.map_eq_some_iff.mp hlookup
    rw [s.tick_readCache]
    exact h key s hbefore

theorem readCacheGet (now : Instant) (node : UInt16) (key : CacheKey) :
    (m.readCacheGet now node key).1.Caches P ∧
      ∀ response, (m.readCacheGet now node key).2 = some response → P response := by
  constructor
  · rw [readCacheGet_eq]
    exact h.of_touches (.modifySession m node fun s hs => (hs.get now key).1)
  · intro response hsome
    unfold TransportManager.readCacheGet at hsome
    cases hfind : m.findSession node with
    | none =>
      rw [hfind] at hsome
      cases hsome
    | some found =>
      rw [hfind] at hsome
      have hs := h found.1 found.2 (findSession_eq_some hfind).1
      exact (hs.get now key).2 response hsome

theorem readCacheInsert (now : Instant) (node : UInt16) (key : CacheKey) {response : List UInt8}
    (hresponse : P response) :
    (m.readCacheInsert now node key response).Caches P :=
  h.of_touches (.modifySession m node fun _ hs => hs.insert now key hresponse)

end

end Caches
end TransportManager
end UniBus.Transport
