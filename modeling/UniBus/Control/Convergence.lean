import UniBus.Control.RegionLives
import UniBus.Foundations.Replicas

/-!
# Convergence of region metadata

When nothing is running and nothing is on its way, every connected peer knows
exactly the regions of the owner, provided that a region is never published after
its revocation. For every region and every connection the proof follows what the
peer is going to hold after everything on its way.
-/
namespace UniBus.Control

open Updates

theorem MemberTable.mem_activePeerSenders {t : MemberTable} (hdistinct : t.Distinct)
    {n : UInt16} {tx : PeerTx} :
    (n, tx) ∈ t.activePeerSenders ↔ ∃ info, t.find n = some info ∧ info.tx = some tx ∧
      n ≠ t.localNodeId ∧ info.state ≠ .down := by
  simp only [activePeerSenders, List.mem_filterMap, List.mem_filter, Bool.and_eq_true, bne_iff_ne,
    Option.map_eq_some_iff, Prod.mk.injEq]
  constructor
  · rintro ⟨info, ⟨hmem, hlocal, hstate⟩, _, htx, rfl, rfl⟩
    exact ⟨info, Maps.find?_of_mem hdistinct hmem, htx, hlocal, hstate⟩
  · rintro ⟨info, hfind, htx, hlocal, hstate⟩
    have hid : info.nodeId = n := by simpa using List.find?_some hfind
    refine ⟨info, ⟨List.mem_of_find?_eq_some hfind, ?_, hstate⟩, tx, htx, hid, rfl⟩
    rwa [hid]

theorem updates_replicate (ownerNode : UInt16) (n : ℕ) (msg : ControlMsg) :
    updates ownerNode (List.replicate n msg) =
      match updateOf ownerNode msg with
      | none => []
      | some u => List.replicate n u := by
  cases hu : updateOf ownerNode msg with
  | none => exact List.filterMap_replicate_of_none hu
  | some u => exact List.filterMap_replicate_of_some hu

namespace MrSync

variable (s : MrSync)

/-- The updates that the drain loop has still to send to some peer. -/
def queue : List (Update UInt32 MrCacheEntry) :=
  updates s.nodeId ((s.drain.event ++ s.events).map eventMessage)

/-- A connection as the link to the cache of its peer. -/
def link (remote : PeerTx → UInt16) (tx : PeerTx) : Link UInt32 MrCacheEntry where
  value := s.cached (remote tx)
  sent := updates s.nodeId (s.channel tx)
  pending := updates s.nodeId (s.connection tx).pending
  owed := updates s.nodeId ((s.drain.owed tx ++ s.events).map eventMessage)
  listed := (s.connection tx).isListing

/-- No other connection to the peer has been greeted. -/
def Sole (remote : PeerTx → UInt16) (tx : PeerTx) : Prop :=
  ∀ tx', remote tx' = remote tx → tx' ≠ tx → s.connection tx' = .new

/-- A region is published on a connection only while it is active or its Revoke is
still to come there. Besides, handles are not used up, and every peer greets on one
connection. -/
def Orderly (remote : PeerTx → UInt16) (s : MrSync) (_ : List (PeerTx × ControlMsg)) :
    SyncInput → Prop
  | .operate op call => s.owner.Orderly op call
  | .greet tx _ _ => remote tx ≠ s.nodeId ∧ s.Sole remote tx
  | .connect tx => ∀ mr rest, s.connection tx = .listing (.mrPublish mr :: rest) →
      (s.owner.table.cells mr.mrHandle).state = .active ∨
      (∃ op, s.owner.operation op = .revoked mr.mrHandle) ∨
      .revoke s.nodeId mr.mrHandle ∈ s.drain.owed tx ++ s.events
  | _ => True

/-! ## The invariant -/

/-- What is on its way is about regions that have been listed, and tells the truth
about them. -/
structure Posted (life : UInt32 → Life) (info : UInt32 → MrCacheEntry) : Prop where
  pending : ∀ tx, ∀ u ∈ updates s.nodeId (s.connection tx).pending,
    (life u.key).Seen ∧ u.value = some (info u.key)
  replies : ∀ tx reply, s.connection tx = .greeted reply → updates s.nodeId reply = []
  queued : ∀ u ∈ s.queue, (life u.key).Seen ∧ (u.value = none ∨ u.value = some (info u.key))
  ordered : Ordered s.queue
  withdrawn : ∀ u ∈ s.queue, u.value = none → s.owner.Withdrawn life u.key

/-- The member table lists the connections that have been greeted. -/
structure Connected (remote : PeerTx → UInt16) : Prop where
  distinct : s.base.members.Distinct
  localNode : s.base.members.localNodeId = s.nodeId
  known : ∀ tx, s.connection tx ≠ .new → remote tx ≠ s.nodeId ∧
    ∃ info, s.base.members.find (remote tx) = some info ∧ info.tx = some tx ∧
      info.state = .active
  greeted : ∀ n info tx, s.base.members.find n = some info → info.tx = some tx →
    s.connection tx ≠ .new ∧ remote tx = n
  sending : ∀ event peers, s.drain = .sending event peers → ∀ peer ∈ peers,
    s.connection peer.2 ≠ .new
  empty : ∀ tx, s.connection tx = .new → s.channel tx = []
  blank : ∀ n, (∀ tx, remote tx = n → s.connection tx = .new) → ∀ handle, s.cached n handle = none

structure InSync (remote : PeerTx → UInt16) (life : UInt32 → Life)
    (info : UInt32 → MrCacheEntry) : Prop where
  traced : s.owner.Traced s.base.memory life info
  posted : s.Posted life info
  connected : s.Connected remote
  agrees : ∀ tx, s.Sole remote tx → ∀ handle, s.owner.Unsent handle ∨
    (s.link remote tx).Agrees handle (expected life info handle)

variable {s} {remote : PeerTx → UInt16} {life : UInt32 → Life} {info : UInt32 → MrCacheEntry}

theorem cached_congr {s' : MrSync} {n : UInt16} (hnode : s'.nodeId = s.nodeId)
    (hcache : s'.caches n = s.caches n) : s'.cached n = s.cached n := by
  funext handle
  rw [cached, cached, hnode, hcache]

theorem mem_queue_of_mem_owed {tx : PeerTx} {u : Update UInt32 MrCacheEntry}
    (hu : u ∈ (s.link remote tx).owed) : u ∈ s.queue := by
  simp only [link, queue, updates, List.mem_filterMap, List.mem_map] at hu ⊢
  obtain ⟨msg, ⟨event, hevent, rfl⟩, hu⟩ := hu
  refine ⟨_, ⟨event, ?_, rfl⟩, hu⟩
  cases hdrain : s.drain with
  | idle => simpa [hdrain, Drain.owed, Drain.event] using hevent
  | received event' => simpa [hdrain, Drain.owed, Drain.event] using hevent
  | sending event' peers =>
    rw [hdrain, List.mem_append] at hevent
    rcases hevent with howed | hrest
    · simp [Drain.event, List.eq_of_mem_replicate howed]
    · simp [hrest]

theorem Posted.ordered_owed (h : s.Posted life info) (tx : PeerTx) :
    Ordered (s.link remote tx).owed := by
  have hordered := h.ordered
  cases hdrain : s.drain with
  | idle => simpa [link, queue, hdrain, Drain.owed, Drain.event] using hordered
  | received event => simpa [link, queue, hdrain, Drain.owed, Drain.event] using hordered
  | sending event peers =>
    simp only [queue, hdrain, Drain.event, List.singleton_append, List.map_cons,
      updates_cons] at hordered
    simp only [link, hdrain, Drain.owed, List.map_append, List.map_replicate, updates_append,
      updates_replicate]
    cases hu : updateOf s.nodeId (eventMessage event) with
    | none => simpa [hu] using hordered
    | some u =>
      rw [hu] at hordered
      exact Ordered.replicate hordered _

theorem mem_owed_of_revoke {tx : PeerTx} {handle : UInt32}
    (h : .revoke s.nodeId handle ∈ s.drain.owed tx ++ s.events) :
    .unset handle ∈ (s.link remote tx).owed := by
  simp only [link, updates, List.mem_filterMap, List.mem_map]
  exact ⟨_, ⟨_, h, rfl⟩, by simp [eventMessage, updateOf]⟩

/-! ## Steps of the operations -/

@[simp] theorem nodeId_operate (op : ℕ) (call : OwnerCall) :
    (s.operate op call).nodeId = s.nodeId := s.owner.nodeId_step ..

@[simp] theorem cached_operate (op : ℕ) (call : OwnerCall) :
    (s.operate op call).cached = s.cached :=
  funext fun _ => cached_congr (nodeId_operate op call) rfl

theorem updates_concat_event (event : Option MrPublishEvent) (ownerNode : UInt16)
    (events : List MrPublishEvent) :
    updates ownerNode ((events ++ event.toList).map eventMessage) =
      updates ownerNode (events.map eventMessage) ++ (Owner.postedOf ownerNode event).toList := by
  cases event with
  | none => simp [Owner.postedOf]
  | some event => simp [Owner.postedOf, updates_append, updates_cons]

theorem queue_operate (op : ℕ) (call : OwnerCall) :
    (s.operate op call).queue =
      s.queue ++ (Owner.postedOf s.nodeId (s.owner.step s.base.memory op call).2).toList := by
  rw [queue, nodeId_operate, operate, ← List.append_assoc, updates_concat_event, queue]

theorem link_operate (op : ℕ) (call : OwnerCall) (tx : PeerTx) :
    (s.operate op call).link remote tx =
      { s.link remote tx with
        owed := (s.link remote tx).owed ++
          (Owner.postedOf s.nodeId (s.owner.step s.base.memory op call).2).toList } := by
  simp only [link, nodeId_operate, cached_operate]
  simp only [operate, ← List.append_assoc, updates_concat_event]

theorem Connected.operate (h : s.Connected remote) (op : ℕ) (call : OwnerCall) :
    (s.operate op call).Connected remote := by
  obtain ⟨hdistinct, hlocal, hknown, hgreeted, hsending, hempty, hblank⟩ := h
  refine ⟨hdistinct, ?_, ?_, hgreeted, hsending, hempty, ?_⟩
  · rw [nodeId_operate]
    exact hlocal
  · rw [nodeId_operate]
    exact hknown
  · rw [cached_operate]
    exact hblank

section Operate
variable {o' : Owner} {life' : UInt32 → Life} {info' : UInt32 → MrCacheEntry}
  {posted : Option (Update UInt32 MrCacheEntry)} {s' : MrSync}

theorem Posted.moves (h : s.Posted life info)
    (hmoves : s.owner.Moves s'.owner life life' info info' posted)
    (hnode : s'.nodeId = s.nodeId) (hconnection : s'.connection = s.connection)
    (hqueue : s'.queue = s.queue ++ posted.toList) : s'.Posted life' info' where
  pending tx u hu := by
    rw [hnode, hconnection] at hu
    obtain ⟨hseen, hvalue⟩ := h.pending tx u hu
    obtain ⟨hseen', hinfo⟩ := hmoves.grows _ hseen
    exact ⟨hseen', by rw [hvalue, hinfo]⟩
  replies tx reply hreply := by
    rw [hconnection] at hreply
    rw [hnode]
    exact h.replies tx reply hreply
  queued u hu := by
    rw [hqueue, List.mem_append, Option.mem_toList] at hu
    rcases hu with hold | hnew
    · obtain ⟨hseen, hvalue⟩ := h.queued u hold
      obtain ⟨hseen', hinfo⟩ := hmoves.grows _ hseen
      exact ⟨hseen', by rwa [hinfo]⟩
    · exact hmoves.seen u hnew
  ordered := by
    rw [hqueue]
    cases posted with
    | none => simpa using h.ordered
    | some u =>
      refine h.ordered.concat fun u' hu' hkey hnone => ?_
      by_contra hset
      have hwithdrawn := h.withdrawn u' hu' hnone
      rw [hkey] at hwithdrawn
      exact hmoves.set u rfl hset hwithdrawn
  withdrawn u hu hnone := by
    rw [hqueue, List.mem_append, Option.mem_toList] at hu
    rcases hu with hold | hnew
    · exact hmoves.stable _ (h.queued u hold).1 (h.withdrawn u hold hnone)
    · exact hmoves.unset u hnew hnone

theorem agrees_moves {tx : PeerTx} {handle : UInt32}
    (h : s.owner.Unsent handle ∨ (s.link remote tx).Agrees handle (expected life info handle))
    (hmoves : s.owner.Moves s'.owner life life' info info' posted)
    (hlink : s'.link remote tx =
      { s.link remote tx with owed := (s.link remote tx).owed ++ posted.toList }) :
    s'.owner.Unsent handle ∨ (s'.link remote tx).Agrees handle (expected life' info' handle) := by
  rcases hmoves.settles handle with hunsent | ⟨hunsent, hkeys, hexpected⟩ | ⟨u, rfl, rfl, hvalue⟩
  · exact Or.inl hunsent
  · right
    rw [hlink, hexpected]
    cases posted with
    | none => simpa using h.resolve_left hunsent
    | some u => exact (h.resolve_left hunsent).post (hkeys u rfl)
  · right
    rw [hlink, ← hvalue]
    exact Link.agrees_post_self _ u

end Operate

theorem InSync.operate (h : s.InSync remote life info) {op : ℕ} {call : OwnerCall}
    (horderly : s.owner.Orderly op call) :
    ∃ life' info', (s.operate op call).InSync remote life' info' := by
  obtain ⟨life', info', htraced, hmoves⟩ := h.traced.follows_step horderly
  refine ⟨life', info', htraced, ?_, h.connected.operate op call, ?_⟩
  · exact h.posted.moves hmoves (nodeId_operate op call) rfl (queue_operate op call)
  · exact fun tx hsole handle =>
      agrees_moves (h.agrees tx hsole handle) hmoves (link_operate op call tx)

/-! ## Steps of the drain loop -/

theorem Posted.of_sublist {s' : MrSync} (h : s.Posted life info) (howner : s'.owner = s.owner)
    (hconnection : s'.connection = s.connection) (hqueue : s'.queue.Sublist s.queue) :
    s'.Posted life info where
  pending := by
    rw [nodeId, howner, hconnection]
    exact h.pending
  replies := by
    rw [nodeId, howner, hconnection]
    exact h.replies
  queued u hu := h.queued u (hqueue.subset hu)
  ordered := h.ordered.sublist hqueue
  withdrawn u hu hnone := by
    rw [howner]
    exact h.withdrawn u (hqueue.subset hu) hnone

theorem countP_activePeerSenders_pos (h : s.Connected remote) {tx : PeerTx} :
    0 < s.base.members.activePeerSenders.countP (fun peer => peer.2 == tx) ↔
      s.connection tx ≠ .new := by
  rw [List.countP_pos_iff]
  constructor
  · rintro ⟨⟨n, tx'⟩, hmem, htx⟩
    obtain rfl : tx' = tx := by simpa using htx
    obtain ⟨node, hfind, htx', -, -⟩ := (MemberTable.mem_activePeerSenders h.distinct).mp hmem
    exact (h.greeted n node tx' hfind htx').1
  · intro hnew
    obtain ⟨hremote, node, hfind, htx, hstate⟩ := h.known tx hnew
    refine ⟨(remote tx, tx), (MemberTable.mem_activePeerSenders h.distinct).mpr ?_, by simp⟩
    exact ⟨node, hfind, htx, by rwa [h.localNode], by simp [hstate]⟩

/-- A step of the drain loop that sends nothing. -/
theorem InSync.of_drain {drain : Drain} {events : List MrPublishEvent}
    (h : s.InSync remote life info)
    (hqueue : ({ s with drain, events } : MrSync).queue.Sublist s.queue)
    (hsending : ∀ event peers, drain = .sending event peers → ∀ peer ∈ peers,
      s.connection peer.2 ≠ .new)
    (hlink : ∀ tx handle, s.Sole remote tx →
      (s.link remote tx).Agrees handle (expected life info handle) →
      (({ s with drain, events } : MrSync).link remote tx).Agrees handle
        (expected life info handle)) :
    ({ s with drain, events } : MrSync).InSync remote life info := by
  obtain ⟨hdistinct, hlocal, hknown, hgreeted, -, hempty, hblank⟩ := h.connected
  refine ⟨h.traced, h.posted.of_sublist rfl rfl hqueue,
    ⟨hdistinct, hlocal, hknown, hgreeted, hsending, hempty, hblank⟩, ?_⟩
  exact fun tx hsole handle => (h.agrees tx hsole handle).imp_right (hlink tx handle hsole)

variable {event : MrPublishEvent}

theorem InSync.recv {events : List MrPublishEvent} (h : s.InSync remote life info)
    (hdrain : s.drain = .idle) (hevents : s.events = event :: events) :
    ({ s with events, drain := .received event } : MrSync).InSync remote life info := by
  refine h.of_drain ?_ (by simp) ?_
  · rw [queue, queue, hdrain, hevents]
    exact List.Sublist.refl _
  · intro tx handle _ hagrees
    rw [link, hdrain, hevents] at hagrees
    exact hagrees

theorem InSync.readPeers (h : s.InSync remote life info) (hdrain : s.drain = .received event) :
    ({ s with drain := .sending event s.base.members.activePeerSenders } : MrSync).InSync
      remote life info := by
  refine h.of_drain ?_ ?_ ?_
  · rw [queue, queue, hdrain]
    exact List.Sublist.refl _
  · rintro event' peers heq peer hpeer
    cases heq
    obtain ⟨node, hfind, htx, -, -⟩ :=
      (MemberTable.mem_activePeerSenders h.connected.distinct).mp hpeer
    exact (h.connected.greeted _ node _ hfind htx).1
  · intro tx handle hsole hagrees
    have howed : (s.link remote tx).owed =
        (updateOf s.nodeId (eventMessage event)).toList ++
          updates s.nodeId (s.events.map eventMessage) := by
      simp [link, hdrain, Drain.owed, updates_cons]
    set count := s.base.members.activePeerSenders.countP fun peer => peer.2 == tx with hcount
    have hlink : ({ s with drain := .sending event s.base.members.activePeerSenders } :
        MrSync).link remote tx =
        { s.link remote tx with
          owed := updates s.nodeId (List.replicate count (eventMessage event)) ++
            updates s.nodeId (s.events.map eventMessage) } := by
      simp only [link, Drain.owed, List.map_append, List.map_replicate, updates_append, ← hcount]
      rfl
    rw [hlink, updates_replicate]
    cases hu : updateOf s.nodeId (eventMessage event) with
    | none =>
      have hrest : updates s.nodeId (s.events.map eventMessage) = (s.link remote tx).owed := by
        rw [howed, hu]
        rfl
      rw [List.nil_append, hrest]
      exact hagrees
    | some u =>
      rw [hu] at howed
      by_cases hnew : s.connection tx = .new
      · -- a connection that has not been greeted is not sent the event
        have hzero : count = 0 := by
          by_contra hpos
          exact (countP_activePeerSenders_pos h.connected).mp (Nat.pos_of_ne_zero hpos) hnew
        have hblank : s.cached (remote tx) handle = none := by
          apply h.connected.blank
          intro tx' hremote
          by_cases htx : tx' = tx
          · rw [htx, hnew]
          · exact hsole tx' hremote htx
        rw [hzero]
        exact hagrees.skip howed (by simp [link, hnew, Connection.isListing]) hblank
          (by simp [link, h.connected.empty tx hnew]) (by simp [link, hnew, Connection.pending])
      · exact hagrees.repeat howed ((countP_activePeerSenders_pos h.connected).mpr hnew)

theorem InSync.finish (h : s.InSync remote life info) (hdrain : s.drain = .sending event []) :
    ({ s with drain := .idle } : MrSync).InSync remote life info := by
  refine h.of_drain ?_ (by simp) ?_
  · simp only [queue, hdrain, Drain.event, List.singleton_append, List.map_cons, updates_cons,
      List.nil_append]
    exact List.sublist_append_right _ _
  · intro tx handle _ hagrees
    rw [link, hdrain] at hagrees
    exact hagrees

theorem channel_push_self (tx : PeerTx) (msg : ControlMsg) :
    (s.push tx msg).channel tx = s.channel tx ++ [msg] := Function.update_self ..

theorem link_push_self (tx : PeerTx) (msg : ControlMsg) :
    (s.push tx msg).link remote tx =
      { s.link remote tx with
        sent := (s.link remote tx).sent ++ (updateOf s.nodeId msg).toList } := by
  simp only [link, channel_push_self, updates_append, updates_cons, updates_nil, List.append_nil]
  rfl

theorem link_push_ne {tx tx' : PeerTx} (htx : tx' ≠ tx) (msg : ControlMsg) :
    (s.push tx msg).link remote tx' = s.link remote tx' := by
  have hchannel : (s.push tx msg).channel tx' = s.channel tx' := Function.update_of_ne htx ..
  rw [link, hchannel]
  rfl

/-- Messages go only to connections that have been greeted. -/
theorem Connected.push (h : s.Connected remote) {tx : PeerTx} (hnew : s.connection tx ≠ .new)
    (msg : ControlMsg) : (s.push tx msg).Connected remote := by
  obtain ⟨hdistinct, hlocal, hknown, hgreeted, hsending, hempty, hblank⟩ := h
  refine ⟨hdistinct, hlocal, hknown, hgreeted, hsending, ?_, hblank⟩
  intro tx' hnew'
  have htx : tx' ≠ tx := by
    rintro rfl
    exact hnew hnew'
  exact (Function.update_of_ne htx ..).trans (hempty tx' hnew')

theorem InSync.sendNext {peer : UInt16 × PeerTx} {peers : List (UInt16 × PeerTx)}
    (h : s.InSync remote life info) (hdrain : s.drain = .sending event (peer :: peers)) :
    (({ s with drain := .sending event peers } : MrSync).push peer.2
      (eventMessage event)).InSync remote life info := by
  set s' : MrSync := { s with drain := .sending event peers } with hs'
  have hnew : s.connection peer.2 ≠ .new := h.connected.sending _ _ hdrain peer (by simp)
  have hqueue : s'.queue = s.queue := by
    rw [queue, queue, hdrain]
    rfl
  have hposted : s'.Posted life info :=
    h.posted.of_sublist rfl rfl (hqueue ▸ List.Sublist.refl _)
  have hconnected : s'.Connected remote := by
    obtain ⟨hdistinct, hlocal, hknown, hgreeted, hsending, hempty, hblank⟩ := h.connected
    refine ⟨hdistinct, hlocal, hknown, hgreeted, ?_, hempty, hblank⟩
    rintro event' peers' heq peer' hpeer'
    cases heq
    exact hsending event _ hdrain peer' (List.mem_cons_of_mem _ hpeer')
  refine ⟨h.traced, hposted.of_sublist rfl rfl (List.Sublist.refl _), hconnected.push hnew _, ?_⟩
  intro tx hsole handle
  refine (h.agrees tx hsole handle).imp_right fun hagrees => ?_
  by_cases htx : tx = peer.2
  · subst htx
    have howed : (s.link remote peer.2).owed =
        (updateOf s.nodeId (eventMessage event)).toList ++ (s'.link remote peer.2).owed := by
      simp [link, hdrain, s', Drain.owed, List.replicate_succ, updates_cons]
      rfl
    rw [link_push_self]
    cases hu : updateOf s'.nodeId (eventMessage event) with
    | none =>
      have hsame : s'.link remote peer.2 = s.link remote peer.2 := by
        have hu' : updateOf s.nodeId (eventMessage event) = none := hu
        rw [hu'] at howed
        simp only [link] at howed ⊢
        rw [howed]
        rfl
      rw [hsame]
      simpa using hagrees
    | some u =>
      have hu' : updateOf s.nodeId (eventMessage event) = some u := hu
      rw [hu'] at howed
      have howed' : u ∈ (s.link remote peer.2).owed := by
        rw [howed]
        exact List.mem_cons_self
      have hmem : u ∈ s.queue := mem_queue_of_mem_owed howed'
      refine hagrees.push howed (hposted.ordered_owed peer.2)
        (fun u' hu' => (h.posted.pending peer.2 u' hu').2) (h.posted.queued u hmem).2 ?_
      intro hkey hnone
      rw [expected, if_neg]
      rw [← hkey]
      exact (h.posted.withdrawn u hmem hnone).1
  · have hcount : (peer :: peers).countP (fun peer => peer.2 == tx) =
        peers.countP fun peer => peer.2 == tx :=
      List.countP_cons_of_neg (by simpa using Ne.symm htx)
    have hlink : s'.link remote tx = s.link remote tx := by
      rw [link, link, hdrain]
      simp only [Drain.owed, hcount]
      rfl
    rw [link_push_ne htx, hlink]
    exact hagrees

theorem InSync.drainStep (h : s.InSync remote life info) : s.drainStep.InSync remote life info := by
  unfold MrSync.drainStep
  cases hdrain : s.drain with
  | idle =>
    cases hevents : s.events with
    | nil => exact h
    | cons event events => exact h.recv hdrain hevents
  | received event => exact h.readPeers hdrain
  | sending event peers =>
    cases peers with
    | nil => exact h.finish hdrain
    | cons peer peers => exact h.sendNext hdrain

/-! ## Steps of the connections -/

section Connection
variable {tx : PeerTx} {connection : Connection}

theorem connection_setConnection_self :
    (s.setConnection tx connection).connection tx = connection := Function.update_self ..

theorem connection_setConnection_ne {tx' : PeerTx} (htx : tx' ≠ tx) :
    (s.setConnection tx connection).connection tx' = s.connection tx' :=
  Function.update_of_ne htx ..

theorem link_setConnection_self :
    (s.setConnection tx connection).link remote tx =
      { s.link remote tx with
        pending := updates s.nodeId connection.pending, listed := connection.isListing } := by
  rw [link, connection_setConnection_self]
  rfl

theorem link_setConnection_ne {tx' : PeerTx} (htx : tx' ≠ tx) :
    (s.setConnection tx connection).link remote tx' = s.link remote tx' := by
  rw [link, connection_setConnection_ne htx]
  rfl

theorem Connected.setConnection (h : s.Connected remote) (hold : s.connection tx ≠ .new)
    (hnew : connection ≠ .new) : (s.setConnection tx connection).Connected remote := by
  have hiff : ∀ tx', (s.setConnection tx connection).connection tx' = .new ↔
      s.connection tx' = .new := by
    intro tx'
    by_cases htx : tx' = tx
    · subst htx
      rw [connection_setConnection_self]
      exact iff_of_false hnew hold
    · rw [connection_setConnection_ne htx]
  obtain ⟨hdistinct, hlocal, hknown, hgreeted, hsending, hempty, hblank⟩ := h
  constructor
  case distinct => exact hdistinct
  case localNode => exact hlocal
  case known => exact fun tx' htx' => hknown tx' ((hiff tx').not.mp htx')
  case greeted =>
    intro n node tx' hfind htx'
    obtain ⟨hnot, hremote⟩ := hgreeted n node tx' hfind htx'
    exact ⟨(hiff tx').not.mpr hnot, hremote⟩
  case sending =>
    exact fun event peers hdrain peer hpeer =>
      (hiff peer.2).not.mpr (hsending event peers hdrain peer hpeer)
  case empty => exact fun tx' htx' => hempty tx' ((hiff tx').mp htx')
  case blank =>
    exact fun n hall => hblank n fun tx' hremote => (hiff tx').mp (hall tx' hremote)

theorem Posted.setConnection (h : s.Posted life info)
    (hpending : ∀ u ∈ updates s.nodeId connection.pending,
      (life u.key).Seen ∧ u.value = some (info u.key))
    (hreplies : ∀ reply, connection = .greeted reply → updates s.nodeId reply = []) :
    (s.setConnection tx connection).Posted life info where
  pending tx' := by
    by_cases htx : tx' = tx
    · subst htx
      rw [connection_setConnection_self]
      exact hpending
    · rw [connection_setConnection_ne htx]
      exact h.pending tx'
  replies tx' := by
    by_cases htx : tx' = tx
    · subst htx
      rw [connection_setConnection_self]
      exact hreplies
    · rw [connection_setConnection_ne htx]
      exact h.replies tx'
  queued := h.queued
  ordered := h.ordered
  withdrawn := h.withdrawn

theorem Sole.of_connection {s' : MrSync} (h : s'.Sole remote tx)
    (hnew : ∀ tx', s'.connection tx' = .new → s.connection tx' = .new) : s.Sole remote tx :=
  fun tx' hremote htx => hnew tx' (h tx' hremote htx)

/-- A step of one connection changes only its own link. -/
theorem InSync.of_link {s' : MrSync} (tx : PeerTx) (h : s.InSync remote life info)
    (howner : s'.owner = s.owner) (hmemory : s'.base.memory = s.base.memory)
    (hposted : s'.Posted life info) (hconnected : s'.Connected remote)
    (hnew : ∀ tx', s'.connection tx' = .new → s.connection tx' = .new)
    (hothers : ∀ tx' ≠ tx, s'.Sole remote tx' → s'.link remote tx' = s.link remote tx')
    (hself : ∀ handle, s.Sole remote tx →
      (s.link remote tx).Agrees handle (expected life info handle) →
      s.owner.Unsent handle ∨ (s'.link remote tx).Agrees handle (expected life info handle)) :
    s'.InSync remote life info := by
  refine ⟨?_, hposted, hconnected, ?_⟩
  · rw [howner, hmemory]
    exact h.traced
  · intro tx' hsole handle
    rw [howner]
    have hsole' := hsole.of_connection hnew
    rcases h.agrees tx' hsole' handle with hunsent | hlink
    · exact Or.inl hunsent
    · by_cases htx : tx' = tx
      · subst htx
        exact hself handle hsole' hlink
      · rw [hothers tx' htx hsole]
        exact Or.inr hlink

theorem new_of_setConnection (hconnection : connection ≠ .new) (tx' : PeerTx)
    (hnew : (s.setConnection tx connection).connection tx' = .new) : s.connection tx' = .new := by
  by_cases htx : tx' = tx
  · subst htx
    rw [connection_setConnection_self] at hnew
    exact absurd hnew hconnection
  · rwa [connection_setConnection_ne htx] at hnew

/-! ### The list of regions -/

theorem mem_updates_existing {handle : UInt32} {e : MrEntry}
    (h : s.owner.Traced s.base.memory life info)
    (he : s.owner.table.entries.lookup handle = some e) :
    .set handle (info handle) ∈ updates s.nodeId s.plane.sendExistingMrs := by
  obtain ⟨rfl, hinfo, hnode⟩ := h.entry handle e he
  simp only [updates, List.mem_filterMap]
  refine ⟨_, List.mem_map.mpr ⟨⟨e.handle, e⟩, AList.mem_lookup_iff.mp he, rfl⟩, ?_⟩
  simp [updateOf, nodeId, hnode, hinfo, cacheEntry, plane]

theorem of_mem_updates_existing {u : Update UInt32 MrCacheEntry}
    (h : s.owner.Traced s.base.memory life info)
    (hu : u ∈ updates s.nodeId s.plane.sendExistingMrs) :
    (life u.key).Seen ∧ u.value = some (info u.key) := by
  simp only [updates, List.mem_filterMap] at hu
  obtain ⟨msg, hmsg, hu⟩ := hu
  obtain ⟨⟨handle, e⟩, hmem, rfl⟩ := List.mem_map.mp hmsg
  have he : s.owner.table.entries.lookup handle = some e := AList.mem_lookup_iff.mpr hmem
  obtain ⟨rfl, hinfo, hnode⟩ := h.entry handle e he
  have hseen : (life e.handle).Seen := by
    rcases (h.listed e.handle).mp (by simp [he]) with hlive | ⟨op, hleaving⟩
    · simp [hlive, Life.Seen]
    · simp [hleaving, Life.Seen]
  simp only [updateOf, nodeId, hnode, if_true, Option.some.injEq] at hu
  subst hu
  exact ⟨hseen, by rw [Update.key, hinfo]; rfl⟩

theorem InSync.takeList (h : s.InSync remote life info)
    (hconnection : s.connection tx = .greeted []) :
    (s.setConnection tx (.listing s.plane.sendExistingMrs)).InSync remote life info := by
  apply h.of_link tx
  case howner => rfl
  case hmemory => rfl
  case hposted =>
    exact h.posted.setConnection (fun u hu => of_mem_updates_existing h.traced hu) (by simp)
  case hconnected => exact h.connected.setConnection (by simp [hconnection]) (by simp)
  case hnew => exact new_of_setConnection (by simp)
  case hothers => exact fun tx' htx _ => link_setConnection_ne htx
  case hself =>
    intro handle _ hagrees
    right
    rw [link_setConnection_self]
    refine hagrees.list (by simp [link, hconnection, Connection.pending])
      (fun u hu => (of_mem_updates_existing h.traced hu).2) (h.posted.ordered_owed tx)
      (fun u hu => (h.posted.queued u (mem_queue_of_mem_owed hu)).2) fun hsome => ?_
    have hlive : life handle = .live := by
      by_contra hnot
      exact hsome (if_neg hnot)
    obtain ⟨e, he⟩ := Option.isSome_iff_exists.mp ((h.traced.listed handle).mpr (Or.inl hlive))
    refine ⟨if_pos hlive, mem_updates_existing h.traced he, fun hunset => ?_⟩
    exact (h.posted.withdrawn _ (mem_queue_of_mem_owed hunset) rfl).1 hlive

theorem InSync.forward {msg : ControlMsg} {connection : Connection}
    (h : s.InSync remote life info)
    (hpending : (s.connection tx).pending = msg :: connection.pending)
    (hlisting : connection.isListing = (s.connection tx).isListing) (hnew : connection ≠ .new)
    (hreplies : ∀ reply, connection = .greeted reply → updates s.nodeId reply = [])
    (hpublish : ∀ handle v, updateOf s.nodeId msg = some (.set handle v) →
      (s.owner.table.cells handle).state = .active ∨
      (∃ op, s.owner.operation op = .revoked handle) ∨
      .revoke s.nodeId handle ∈ s.drain.owed tx ++ s.events) :
    ((s.setConnection tx connection).push tx msg).InSync remote life info := by
  have hold : s.connection tx ≠ .new := by
    intro heq
    rw [heq] at hpending
    cases hpending
  have hupdates : updates s.nodeId (s.connection tx).pending =
      (updateOf s.nodeId msg).toList ++ updates s.nodeId connection.pending := by
    rw [hpending, updates_cons]
  apply h.of_link tx
  case howner => rfl
  case hmemory => rfl
  case hposted =>
    refine Posted.of_sublist (h.posted.setConnection (fun u hu => ?_) hreplies) rfl rfl
      (List.Sublist.refl _)
    exact h.posted.pending tx u (hupdates ▸ List.mem_append_right _ hu)
  case hconnected =>
    exact (h.connected.setConnection hold hnew).push (by rwa [connection_setConnection_self]) msg
  case hnew => exact new_of_setConnection hnew
  case hothers =>
    intro tx' htx _
    rw [link_push_ne htx, link_setConnection_ne htx]
  case hself =>
    intro handle _ hagrees
    by_cases hunsent : s.owner.Unsent handle
    · exact Or.inl hunsent
    · right
      rw [link_push_self, link_setConnection_self, hlisting]
      refine hagrees.forward hupdates fun v hv hgone => ?_
      rcases hpublish handle v (Option.mem_toList.mp hv) with hactive | ⟨op, hrevoked⟩ | hahead
      · rw [expected, if_pos ((h.traced.active handle).mp hactive)] at hgone
        cases hgone
      · exact absurd ⟨op, by rw [hrevoked]; rfl⟩ hunsent
      · exact mem_owed_of_revoke hahead

theorem InSync.connect (h : s.InSync remote life info)
    (horderly : s.Orderly remote [] (.connect tx)) : (s.connect tx).InSync remote life info := by
  unfold MrSync.connect
  cases hconnection : s.connection tx with
  | new => exact h
  | greeted reply =>
    cases reply with
    | nil => exact h.takeList hconnection
    | cons msg reply =>
      have hempty := h.posted.replies tx _ hconnection
      rw [updates_cons, List.append_eq_nil_iff] at hempty
      refine h.forward (by rw [hconnection]; rfl) (by rw [hconnection]; rfl) (by simp) ?_ ?_
      · rintro _ ⟨⟩
        exact hempty.2
      · intro handle v hmsg
        simp [hmsg] at hempty
  | listing rest =>
    cases rest with
    | nil => exact h
    | cons msg rest =>
      refine h.forward (by rw [hconnection]; rfl) (by rw [hconnection]; rfl) (by simp) (by simp) ?_
      intro handle v hmsg
      cases msg with
      | mrPublish mr =>
        simp only [updateOf] at hmsg
        split_ifs at hmsg
        cases hmsg
        exact horderly mr rest hconnection
      | mrRevoke revoke =>
        simp only [updateOf] at hmsg
        split_ifs at hmsg
        cases hmsg
      | _ => cases hmsg

/-! ### Greetings -/

/-- A greeting makes the peer an active member with this connection. -/
theorem processControlMessage_greeting (p : Plane) (tx : PeerTx) (now : ℕ) (n : UInt16)
    (greeting : Greeting) :
    ∃ node, node.nodeId = n ∧ node.state = .active ∧ node.tx = some tx ∧
      (p.processControlMessage tx now (greeting.message n)).1 =
        { p with members := p.members.upsert node } := by
  cases greeting <;> exact ⟨_, rfl, rfl, rfl, rfl⟩

theorem localNodeId_upsert (t : MemberTable) (node : NodeInfo) :
    (t.upsert node).localNodeId = t.localNodeId := by
  unfold MemberTable.upsert
  split_ifs <;> rfl

theorem Connected.greet {reply : List ControlMsg} {node : NodeInfo} (h : s.Connected remote)
    (hremote : remote tx ≠ s.nodeId) (hsole : s.Sole remote tx) (hid : node.nodeId = remote tx)
    (hstate : node.state = .active) (htx : node.tx = some tx) {base : Plane}
    (hbase : base.members = s.base.members.upsert node) :
    (({ s with base } : MrSync).setConnection tx (.greeted reply)).Connected remote := by
  have hconnection : ∀ tx', tx' ≠ tx →
      (({ s with base } : MrSync).setConnection tx (.greeted reply)).connection tx' =
        s.connection tx' := fun tx' htx' => connection_setConnection_ne htx'
  have hself : (({ s with base } : MrSync).setConnection tx (.greeted reply)).connection tx ≠
      .new := by
    rw [connection_setConnection_self]
    simp
  have hnew : ∀ tx', (({ s with base } : MrSync).setConnection tx (.greeted reply)).connection
      tx' = .new → s.connection tx' = .new :=
    new_of_setConnection (by simp)
  have hfind : ∀ n, base.members.find n =
      if n = remote tx then
        some { node with
          lastSeen := ((s.base.members.find (remote tx)).map NodeInfo.lastSeen).getD node.lastSeen }
      else s.base.members.find n := by
    intro n
    rw [hbase, MemberTable.find_upsert, hid]
  constructor
  case distinct =>
    change base.members.Distinct
    rw [hbase]
    exact MemberTable.distinct_upsert node h.distinct
  case localNode =>
    change base.members.localNodeId = s.nodeId
    rw [hbase, localNodeId_upsert, h.localNode]
  case known =>
    intro tx' htx'
    change remote tx' ≠ s.nodeId ∧ ∃ info, base.members.find (remote tx') = some info ∧ _
    rw [hfind]
    by_cases heq : tx' = tx
    · subst heq
      exact ⟨hremote, _, if_pos rfl, htx, hstate⟩
    · rw [hconnection tx' heq] at htx'
      -- another connection to the same peer has not been greeted
      have hne : remote tx' ≠ remote tx := fun hsame => htx' (hsole tx' hsame heq)
      rw [if_neg hne]
      exact h.known tx' htx'
  case greeted =>
    intro n info tx' hinfo htx'
    change base.members.find n = some info at hinfo
    rw [hfind] at hinfo
    split_ifs at hinfo with hn
    · cases hinfo
      rw [htx] at htx'
      cases htx'
      exact ⟨hself, hn.symm⟩
    · obtain ⟨hgreeted, hsame⟩ := h.greeted n info tx' hinfo htx'
      exact ⟨fun hnot => hgreeted (hnew tx' hnot), hsame⟩
  case sending =>
    intro event peers hdrain peer hpeer hnot
    exact h.sending event peers hdrain peer hpeer (hnew _ hnot)
  case empty => exact fun tx' hnot => h.empty tx' (hnew tx' hnot)
  case blank =>
    intro n hall handle
    exact h.blank n (fun tx' hsame => hnew tx' (hall tx' hsame)) handle

theorem InSync.greet (h : s.InSync remote life info) (now : ℕ) (greeting : Greeting)
    (hremote : remote tx ≠ s.nodeId) (hsole : s.Sole remote tx) :
    (s.greet remote tx now greeting).InSync remote life info := by
  unfold MrSync.greet
  split_ifs with hfree
  · obtain ⟨node, hid, hstate, htx, hbase⟩ :=
      processControlMessage_greeting s.plane tx now (remote tx) greeting
    rw [hbase]
    have hpending : (s.connection tx).pending = [] := by
      rcases hfree with heq | heq <;> rw [heq] <;> rfl
    have hreply : updates s.nodeId (greeting.reply
        { s.plane with members := s.plane.members.upsert node }) = [] := updates_reply _ greeting
    apply h.of_link tx
    case howner => rfl
    case hmemory => rfl
    case hposted =>
      refine Posted.setConnection (h.posted.of_sublist rfl rfl (List.Sublist.refl _)) ?_ ?_
      · intro u hu
        rw [Connection.pending] at hu
        exact absurd (hreply ▸ hu) List.not_mem_nil
      · rintro _ ⟨⟩
        exact hreply
    case hconnected => exact h.connected.greet hremote hsole hid hstate htx rfl
    case hnew => exact new_of_setConnection (by simp)
    case hothers => exact fun tx' htx' _ => link_setConnection_ne htx'
    case hself =>
      intro handle _ hagrees
      right
      rw [link_setConnection_self]
      have hlink : (s.link remote tx).pending = [] := by rw [link, hpending, updates_nil]
      have hreply' : updates s.nodeId (Connection.greeted (greeting.reply
          { s.plane with members := s.plane.members.upsert node })).pending =
          (s.link remote tx).pending := by rw [hlink]; exact hreply
      change Link.Agrees { s.link remote tx with
        pending := updates s.nodeId (Connection.greeted (greeting.reply _)).pending,
        listed := false } _ _
      rw [hreply']
      exact hagrees.unlist
  · exact h

/-! ### Deliveries -/

theorem InSync.receiveNext {msg : ControlMsg} {rest : List ControlMsg}
    (h : s.InSync remote life info) (hchannel : s.channel tx = msg :: rest) :
    ({ s with
      channel := Function.update s.channel tx rest
      caches := Function.update s.caches (remote tx)
        (receive (s.caches (remote tx)) msg) } : MrSync).InSync remote life info := by
  set s' : MrSync := { s with
    channel := Function.update s.channel tx rest
    caches := Function.update s.caches (remote tx) (receive (s.caches (remote tx)) msg) } with hs'
  have hold : s.connection tx ≠ .new := by
    intro hnew
    rw [h.connected.empty tx hnew] at hchannel
    cases hchannel
  have hcached : ∀ n, n ≠ remote tx → s'.cached n = s.cached n := fun n hn =>
    cached_congr rfl (Function.update_of_ne hn ..)
  have hchannels : ∀ tx' ≠ tx, s'.channel tx' = s.channel tx' := fun tx' htx =>
    Function.update_of_ne htx ..
  apply h.of_link tx
  case howner => rfl
  case hmemory => rfl
  case hposted => exact h.posted.of_sublist rfl rfl (List.Sublist.refl _)
  case hconnected =>
    obtain ⟨hdistinct, hlocal, hknown, hgreeted, hsending, hempty, hblank⟩ := h.connected
    refine ⟨hdistinct, hlocal, hknown, hgreeted, hsending, ?_, ?_⟩
    · intro tx' hnew
      rw [hchannels tx' fun heq => hold (heq ▸ hnew)]
      exact hempty tx' hnew
    · intro n hall handle
      rw [hcached n fun heq => hold (hall tx heq.symm)]
      exact hblank n hall handle
  case hnew => exact fun _ hnew => hnew
  case hothers =>
    intro tx' htx hsole
    -- a peer has only one connection that messages come from
    have hremote : remote tx' ≠ remote tx := fun heq => hold (hsole tx heq.symm (Ne.symm htx))
    rw [link, hcached _ hremote, hchannels tx' htx]
    rfl
  case hself =>
    intro handle _ hagrees
    right
    have hsent : (s.link remote tx).sent =
        (updateOf s.nodeId msg).toList ++ updates s.nodeId rest := by
      rw [link, hchannel, updates_cons]
    have hcache : s'.caches (remote tx) = receive (s.caches (remote tx)) msg :=
      Function.update_self ..
    have hvalue : s'.cached (remote tx) handle =
        effect handle (updateOf s.nodeId msg).toList ((s.link remote tx).value handle) := by
      rw [cached, hcache]
      exact lookup_receive _ msg handle
    have hrest : s'.channel tx = rest := Function.update_self ..
    rw [link, hrest]
    exact hagrees.deliver hsent hvalue

theorem InSync.deliver (h : s.InSync remote life info) (tx : PeerTx) :
    (s.deliver remote tx).1.InSync remote life info := by
  unfold MrSync.deliver
  cases hchannel : s.channel tx with
  | nil => exact h
  | cons msg rest => exact h.receiveNext hchannel

end Connection

/-! ## Runs -/

/-- When nothing is on its way, a peer holds what it is going to hold. -/
theorem InSync.converged (h : s.InSync remote life info) (hquiet : s.Quiet) : s.Converged := by
  intro n tx hn handle
  obtain ⟨node, hfind, htx⟩ := Option.bind_eq_some_iff.mp hn
  obtain ⟨hnew, rfl⟩ := h.connected.greeted n node tx hfind htx
  have hlisting : s.connection tx = .listing [] := (hquiet.connections tx).resolve_left hnew
  have hsole : s.Sole remote tx := by
    intro tx' hremote hne
    by_contra hnew'
    obtain ⟨-, node', hfind', htx', -⟩ := h.connected.known tx' hnew'
    rw [hremote, hfind] at hfind'
    cases hfind'
    rw [htx] at htx'
    cases htx'
    exact hne rfl
  have hagrees := (h.agrees tx hsole handle).resolve_left fun ⟨op, hop⟩ => by
    rw [hquiet.operations op] at hop
    cases hop
  have hvalue : s.cached (remote tx) handle = expected life info handle := by
    apply hagrees.eq_value
    · rw [link, hlisting]
      rfl
    · simp [link, hquiet.channels tx]
    · simp [link, hlisting, Connection.pending]
    · simp [link, hquiet.drain, hquiet.events, Drain.owed]
  rw [hvalue, expected]
  cases he : s.owner.table.entries.lookup handle with
  | none =>
    have hnot := (h.traced.listed handle).not.mp (by simp [he])
    rw [if_neg fun hlive => hnot (Or.inl hlive)]
    rfl
  | some e =>
    rcases (h.traced.listed handle).mp (by simp [he]) with hlive | ⟨op, hleaving⟩
    · rw [if_pos hlive, (h.traced.entry handle e he).2.1]
      rfl
    · have hop := (h.traced.leaving op handle).mpr hleaving
      rw [hquiet.operations op] at hop
      cases hop

theorem InSync.step (h : s.InSync remote life info) {log : List (PeerTx × ControlMsg)}
    {input : SyncInput} (horderly : s.Orderly remote log input) :
    ∃ life' info', (s.step remote input).1.InSync remote life' info' := by
  cases input with
  | operate op call => exact h.operate horderly
  | drain => exact ⟨life, info, h.drainStep⟩
  | greet tx now greeting =>
    exact ⟨life, info, h.greet now greeting horderly.1 horderly.2⟩
  | connect tx => exact ⟨life, info, h.connect horderly⟩
  | deliver tx => exact ⟨life, info, h.deliver tx⟩

section Start
variable (config : PlaneConfig) (localEpoch : UInt32) (podId : UInt16) (memory : Memory) (now : ℕ)
  (controlListen : String)

theorem connected_start (remote : PeerTx → UInt16) :
    (start config localEpoch podId memory now controlListen).Connected remote := by
  set s := start config localEpoch podId memory now controlListen with hs
  have hfind : ∀ n node, s.base.members.find n = some node → node.tx = none := by
    intro n node hnode
    simp only [hs, start, Plane.registerSelf, MemberTable.find_upsert] at hnode
    split_ifs at hnode
    · cases hnode
      rfl
    · cases hnode
  constructor
  case distinct => exact MemberTable.distinct_upsert _ List.nodup_nil
  case localNode => exact localNodeId_upsert _ _
  case known => exact fun tx hnew => absurd rfl hnew
  case greeted =>
    intro n node tx hnode htx
    rw [hfind n node hnode] at htx
    cases htx
  case sending => simp [hs, start]
  case empty => exact fun _ _ => rfl
  case blank => exact fun _ _ _ => rfl

theorem inSync_start (remote : PeerTx → UInt16) (info : UInt32 → MrCacheEntry) :
    (start config localEpoch podId memory now controlListen).InSync remote
      (fun _ => .unseen) info := by
  refine ⟨?_, ?_, connected_start config localEpoch podId memory now controlListen remote, ?_⟩
  · constructor <;> simp [start, MrTable.new, MrOperation.leaving]
  · constructor <;> simp [start, queue, Drain.event, Connection.pending, Ordered]
  · exact fun tx _ handle => Or.inr (Or.inl rfl)

/-- Once nothing is running and nothing is on its way, every connected peer knows
exactly the regions of the owner, if no region was published after its revocation. -/
theorem regions_converge (remote : PeerTx → UInt16) (inputs : List SyncInput)
    (horderly : Runs.Meets (MrSync.step remote) (Orderly remote)
      (start config localEpoch podId memory now controlListen) [] inputs)
    (hquiet : (Runs.run (MrSync.step remote)
      (start config localEpoch podId memory now controlListen) inputs).1.Quiet) :
    (Runs.run (MrSync.step remote)
      (start config localEpoch podId memory now controlListen) inputs).1.Converged := by
  set s := start config localEpoch podId memory now controlListen
  have hstart : ∃ life info, s.InSync remote life info :=
    ⟨_, _, inSync_start config localEpoch podId memory now controlListen remote fun _ =>
      ⟨0, 0, .new 0 0 0 0 0, 0, .read, .memory⟩⟩
  obtain ⟨life, info, h⟩ := Runs.run_invariant
    (I := fun s _ => ∃ life info, s.InSync remote life info)
    (fun s log input ⟨life, info, h⟩ horderly => h.step horderly) hstart horderly
  exact h.converged hquiet

end Start

/-- Node 1, with node 2 at the other end of every connection. -/
def nodeOne : MrSync := start ⟨1, "a:1", 64, 1000, 3⟩ 5 0 (fun _ => ⟨.memory, 0, []⟩) 0 "a:2"

def toNodeTwo : PeerTx → UInt16 := fun _ => 2

/-- Node 2 connects during a registration and is told of the region twice. -/
def publication : List SyncInput :=
  [.operate 0 (.register 0 64 .read), .operate 0 .proceed, .operate 0 .proceed,
    .greet 0 1 (.helloAck ⟨0, 1, 6, 64, "b:1"⟩), .connect 0, .connect 0,
    .operate 0 .proceed, .drain, .drain, .drain, .drain, .deliver 0, .deliver 0]

theorem meets_publication :
    Runs.Meets (step toNodeTwo) (Orderly toNodeTwo) nodeOne [] publication := by
  refine ⟨trivial, ?_, trivial, ⟨by decide, fun _ _ _ => rfl⟩, ?_, ?_, Or.inl rfl, trivial, trivial,
    trivial, trivial, trivial, trivial, trivial⟩
  · -- the first handle
    change (1 : UInt32) ≠ 0xFFFFFFFF
    decide
  · rintro mr rest ⟨⟩
  · rintro mr rest ⟨⟩
    exact Or.inl rfl

theorem quiet_publication : (Runs.run (step toNodeTwo) nodeOne publication).1.Quiet where
  operations
    | 0 => rfl
    | _ + 1 => rfl
  events := rfl
  drain := rfl
  connections
    | 0 => Or.inr rfl
    | _ + 1 => Or.inl rfl
  channels
    | 0 => rfl
    | _ + 1 => rfl

theorem regions_converge_publication :
    (Runs.run (step toNodeTwo) nodeOne publication).1.Converged ∧
      (Runs.run (step toNodeTwo) nodeOne publication).1.base.members.getPeerTx 2 = some 0 ∧
      ((Runs.run (step toNodeTwo) nodeOne publication).1.cached 2 1).isSome :=
  ⟨regions_converge _ _ _ _ _ _ toNodeTwo publication meets_publication quiet_publication,
    by decide +kernel, by decide +kernel⟩

/-- The Revoke event of a region is drained before node 2 connects; node 2 is told of
the region all the same, because it is still listed. -/
def lateList : List SyncInput :=
  [.operate 0 (.register 0 64 .read), .operate 0 .proceed, .operate 0 .proceed,
    .operate 0 .proceed, .drain, .drain, .drain,
    .operate 0 (.deregisterAsync 1), .operate 0 .proceed, .operate 0 .proceed,
    .drain, .drain, .drain,
    .greet 0 1 (.helloAck ⟨0, 1, 6, 64, "b:1"⟩), .connect 0, .connect 0,
    .operate 0 .proceed, .operate 0 .proceed, .deliver 0]

theorem quiet_lateList : (Runs.run (step toNodeTwo) nodeOne lateList).1.Quiet where
  operations
    | 0 => rfl
    | _ + 1 => rfl
  events := rfl
  drain := rfl
  connections
    | 0 => Or.inr rfl
    | _ + 1 => Or.inl rfl
  channels
    | 0 => rfl
    | _ + 1 => rfl

/-- A region that is gone stays in the cache of a connected peer. -/
theorem stale_region_after_late_list :
    (Runs.run (step toNodeTwo) nodeOne lateList).1.Quiet ∧
      ¬ (Runs.run (step toNodeTwo) nodeOne lateList).1.Converged := by
  refine ⟨quiet_lateList, fun hconverged => ?_⟩
  have hstale := hconverged 2 0 (by decide +kernel) 1
  have hcached : ((Runs.run (step toNodeTwo) nodeOne lateList).1.cached 2 1).isSome := by
    decide +kernel
  have hgone : (Runs.run (step toNodeTwo) nodeOne lateList).1.owner.table.entries.lookup 1 =
      none := by
    decide +kernel
  rw [hstale, hgone] at hcached
  cases hcached

end MrSync
end UniBus.Control
