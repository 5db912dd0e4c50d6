import UniBus.Control.Plane
import UniBus.Foundations.Runs

/-!
# Membership

What messages and rounds of the heartbeat loop do to the entry of one node:
whether it keeps its channel, when it was last seen and whether it is suspected.
-/
namespace UniBus.Control

/-! ## The member table by node -/

namespace MemberTable

variable {t : MemberTable} {nodeId : UInt16}

theorem find_modify {f : NodeInfo → NodeInfo} (hf : ∀ n, n.nodeId = nodeId → (f n).nodeId = nodeId)
    (m : UInt16) :
    (t.modify nodeId f).find m = if m = nodeId then (t.find nodeId).map f else t.find m :=
  Maps.find?_modify_findIdx hf m t.nodes

theorem any_eq_isSome_find (t : MemberTable) (m : UInt16) :
    (t.nodes.any fun n => n.nodeId == m) = (t.find m).isSome := by
  rw [Bool.eq_iff_iff, List.any_eq_true, find, List.find?_isSome]

theorem find_upsert (info : NodeInfo) (m : UInt16) :
    (t.upsert info).find m =
      if m = info.nodeId then
        some { info with
          lastSeen := ((t.find info.nodeId).map NodeInfo.lastSeen).getD info.lastSeen }
      else t.find m := by
  rw [upsert, any_eq_isSome_find]
  cases hfind : t.find info.nodeId with
  | some old =>
    rw [Option.isSome_some, if_pos rfl, find_modify]
    · rw [hfind]
      rfl
    · intro n _
      rfl
  | none =>
    rw [Option.isSome_none, if_neg Bool.false_ne_true, find, List.find?_append]
    by_cases hm : m = info.nodeId
    · subst hm
      rw [find] at hfind
      rw [hfind, if_pos rfl]
      simp
    · simp [hm, Ne.symm hm, find]

theorem getPeerTx_upsert (info : NodeInfo) (m : UInt16) :
    (t.upsert info).getPeerTx m = if m = info.nodeId then info.tx else t.getPeerTx m := by
  rw [getPeerTx, find_upsert]
  split_ifs <;> rfl

end MemberTable

namespace Plane

variable (p : Plane)

/-- The own entry, made when the control plane starts. -/
def registerSelf (now : ℕ) (controlListen : String) : Plane :=
  { p with
    members := p.members.upsert
      { nodeId := p.config.nodeId, state := .active, controlAddr := controlListen
        dataAddr := p.config.dataListen, epoch := p.localEpoch
        initialCredits := p.config.initialCredits, lastSeen := some now, tx := none } }

/-- What both sides of a connection send first. -/
def helloMessage : ControlMsg :=
  .hello ⟨p.config.nodeId, 1, p.localEpoch, p.config.initialCredits, p.config.dataListen⟩

/-- What a node sends first to a seed. -/
def joinMessage (controlListen : String) : ControlMsg :=
  .join ⟨p.config.nodeId, p.localEpoch, p.config.dataListen, controlListen,
    p.config.initialCredits⟩

/-! ## Snapshots and channels -/

variable {p}

theorem config_learn (now : ℕ) (node : SnapshotNodeInfo) :
    (p.learn now node).config = p.config := by
  unfold learn
  split_ifs <;> rfl

theorem getPeerTx_learn (now : ℕ) (node : SnapshotNodeInfo) (n : UInt16) :
    (p.learn now node).members.getPeerTx n =
      if n = node.nodeId ∧ node.nodeId ≠ p.config.nodeId then none
      else p.members.getPeerTx n := by
  unfold learn
  split_ifs with hself hlisted hlisted
  · exact absurd hself hlisted.2
  · rfl
  · rw [MemberTable.getPeerTx_upsert, if_pos hlisted.1]
  · rw [MemberTable.getPeerTx_upsert, if_neg fun hn => hlisted ⟨hn, hself⟩]

/-- A snapshot clears the channel of every node it lists, the own one apart. -/
theorem getPeerTx_foldl_learn (now : ℕ) (nodes : List SnapshotNodeInfo) (n : UInt16) :
    (nodes.foldl (fun p node => p.learn now node) p).members.getPeerTx n =
      if ∃ node ∈ nodes, n = node.nodeId ∧ node.nodeId ≠ p.config.nodeId then none
      else p.members.getPeerTx n := by
  induction nodes generalizing p with
  | nil => simp
  | cons node nodes ih =>
    rw [List.foldl_cons, ih, getPeerTx_learn, config_learn]
    by_cases hhead : n = node.nodeId ∧ node.nodeId ≠ p.config.nodeId
    · simp [hhead]
    · simp [hhead]

/-- A snapshot keeps all channels if and only if it lists no node, the own one
apart, that has one. -/
theorem snapshot_keeps_channels_iff (p : Plane) (peerTx : PeerTx) (now : ℕ)
    (snapshot : MemberSnapshotPayload) :
    (∀ n tx, p.members.getPeerTx n = some tx →
      (p.processControlMessage peerTx now (.memberSnapshot snapshot)).1.members.getPeerTx n =
        some tx) ↔
    ∀ node ∈ snapshot.nodes, node.nodeId ≠ p.config.nodeId →
      p.members.getPeerTx node.nodeId = none := by
  simp only [processControlMessage, getPeerTx_foldl_learn]
  constructor
  · intro h node hnode hself
    by_contra hsome
    obtain ⟨tx, htx⟩ := Option.ne_none_iff_exists'.mp hsome
    have hkept := h node.nodeId tx htx
    rw [if_pos ⟨node, hnode, rfl, hself⟩] at hkept
    cases hkept
  · intro h n tx htx
    rw [if_neg]
    · exact htx
    · rintro ⟨node, hnode, rfl, hself⟩
      rw [h node hnode hself] at htx
      cases htx

/-- A seed, and a node that joins through it. -/
def seedNode : Plane :=
  (Plane.new ⟨1, "a:1", 64, 1000, 3⟩ 5 none fun _ => ⟨.memory, 0, []⟩).registerSelf 0 "a:2"

def joiningNode : Plane :=
  (Plane.new ⟨2, "b:1", 64, 1000, 3⟩ 6 none fun _ => ⟨.memory, 0, []⟩).registerSelf 0 "b:2"

/-- The seed's answer to JOIN lists the seed itself: the joining node loses the
channel it got from the seed's HELLO. -/
theorem joiner_loses_seed_channel :
    let answer := (seedNode.processControlMessage 4 1 (joiningNode.joinMessage "b:2")).2.replies
    let greeted := (joiningNode.processControlMessage 7 2 seedNode.helloMessage).1
    answer = [.memberSnapshot ⟨[⟨1, 1, "a:1", "a:2", 5⟩, ⟨2, 1, "b:1", "b:2", 6⟩]⟩] ∧
      greeted.members.getPeerTx 1 = some 7 ∧
      (greeted.processControlMessage 7 3 (.memberSnapshot
        ⟨[⟨1, 1, "a:1", "a:2", 5⟩, ⟨2, 1, "b:1", "b:2", 6⟩]⟩)).1.members.getPeerTx 1 = none := by
  decide

end Plane

/-! ## When a node was last seen -/

namespace MemberTable

variable {t t' t'' : MemberTable} {nodeId : UInt16} {now : ℕ}

def Distinct (t : MemberTable) : Prop := (t.nodes.map NodeInfo.nodeId).Nodup

/-- The node stays known, and was last seen as before or at `now`. -/
def KeepsSeen (nodeId : UInt16) (now : ℕ) (t t' : MemberTable) : Prop :=
  ∀ info, t.find nodeId = some info → ∃ info', t'.find nodeId = some info' ∧
    (info'.lastSeen = info.lastSeen ∨ info'.lastSeen = some now)

theorem KeepsSeen.refl : KeepsSeen nodeId now t t := fun info h => ⟨info, h, Or.inl rfl⟩

theorem KeepsSeen.trans (h : KeepsSeen nodeId now t t') (k : KeepsSeen nodeId now t' t'') :
    KeepsSeen nodeId now t t'' := by
  intro info hinfo
  obtain ⟨info', hinfo', hseen'⟩ := h info hinfo
  obtain ⟨info'', hinfo'', hseen''⟩ := k info' hinfo'
  refine ⟨info'', hinfo'', ?_⟩
  rcases hseen'' with hsame | hnow
  · rw [hsame]
    exact hseen'
  · exact Or.inr hnow

theorem keepsSeen_modify {m : UInt16} {f : NodeInfo → NodeInfo}
    (hid : ∀ n, (f n).nodeId = n.nodeId)
    (hseen : ∀ n, (f n).lastSeen = n.lastSeen ∨ (f n).lastSeen = some now) :
    KeepsSeen nodeId now t (t.modify m f) := by
  intro info hinfo
  rw [find_modify fun n hn => (hid n).trans hn]
  by_cases hm : nodeId = m
  · subst hm
    rw [if_pos rfl, hinfo]
    exact ⟨f info, rfl, hseen info⟩
  · rw [if_neg hm]
    exact ⟨info, hinfo, Or.inl rfl⟩

theorem keepsSeen_upsert (info : NodeInfo) : KeepsSeen nodeId now t (t.upsert info) := by
  intro old hold
  rw [find_upsert]
  by_cases hm : nodeId = info.nodeId
  · subst hm
    rw [if_pos rfl, hold]
    exact ⟨_, rfl, Or.inl rfl⟩
  · rw [if_neg hm]
    exact ⟨old, hold, Or.inl rfl⟩

theorem distinct_modify {m : UInt16} {f : NodeInfo → NodeInfo}
    (hid : ∀ n, n.nodeId = m → (f n).nodeId = m) (h : t.Distinct) : (t.modify m f).Distinct := by
  have hmap : (t.modify m f).nodes.map NodeInfo.nodeId = t.nodes.map NodeInfo.nodeId :=
    Maps.map_modify_findIdx hid t.nodes
  rw [Distinct, hmap]
  exact h

theorem distinct_upsert (info : NodeInfo) (h : t.Distinct) : (t.upsert info).Distinct := by
  unfold upsert
  split_ifs with hknown
  · exact distinct_modify (fun _ _ => rfl) h
  · rw [any_eq_isSome_find, Option.not_isSome_iff_eq_none, find, List.find?_eq_none] at hknown
    rw [Distinct, List.map_append, List.nodup_append]
    refine ⟨h, by simp, ?_⟩
    intro a ha b hb
    obtain ⟨n, hn, rfl⟩ := List.mem_map.mp ha
    obtain rfl := List.mem_singleton.mp hb
    simpa using hknown n hn

theorem find_markActive (m : UInt16) :
    (t.markActive m).find m = (t.find m).map fun n => { n with state := .active } := by
  rw [markActive, find_modify, if_pos rfl]
  intro n hn
  exact hn

theorem find_updateLastSeen (m : UInt16) (ts : ℕ) :
    (t.updateLastSeen m ts).find m = (t.find m).map fun n => { n with lastSeen := some ts } := by
  rw [updateLastSeen, find_modify, if_pos rfl]
  intro n hn
  exact hn

theorem keepsSeen_updateLastSeen (m : UInt16) :
    KeepsSeen nodeId now t (t.updateLastSeen m now) :=
  keepsSeen_modify (fun _ => rfl) fun _ => Or.inr rfl

/-- The state of the entry of one node is changed, any number of times. -/
inductive Marked (m : UInt16) (t : MemberTable) : MemberTable → Prop
  | refl : Marked m t t
  | modify {t' : MemberTable} {f : NodeInfo → NodeInfo} (hid : ∀ n, (f n).nodeId = n.nodeId)
      (hseen : ∀ n, (f n).lastSeen = n.lastSeen) (h : Marked m t t') :
      Marked m t (t'.modify m f)

namespace Marked

variable {m : UInt16}

section
variable (h : Marked m t t')
include h

theorem markActive : Marked m t (t'.markActive m) :=
  h.modify (fun _ => rfl) fun _ => rfl

theorem markDown : Marked m t (t'.markDown m) :=
  h.modify (fun _ => rfl) fun _ => rfl

theorem markSuspect : Marked m t (t'.markSuspect m) := by
  apply h.modify
  · intro n
    split_ifs <;> rfl
  · intro n
    split_ifs <;> rfl

theorem keepsSeen : KeepsSeen nodeId now t t' := by
  induction h with
  | refl => exact .refl
  | modify hid hseen _ ih => exact ih.trans (keepsSeen_modify hid fun n => Or.inl (hseen n))

theorem distinct (hdistinct : t.Distinct) : t'.Distinct := by
  induction h with
  | refl => exact hdistinct
  | modify hid hseen _ ih => exact distinct_modify (fun n hn => (hid n).trans hn) ih

theorem find_ne (hne : nodeId ≠ m) : t'.find nodeId = t.find nodeId := by
  induction h with
  | refl => rfl
  | modify hid hseen _ ih => rw [find_modify fun n hn => (hid n).trans hn, if_neg hne, ih]

end

end Marked
end MemberTable

namespace Plane

variable {p p' p'' : Plane} {n : UInt16} {now : ℕ}

/-! ## One round of the heartbeat loop -/

def Accuses (n : UInt16) : PeerChangeEvent → Prop
  | .suspect m => m = n
  | .down m _ => m = n
  | _ => False

/-- The node is neither accused nor marked Suspect or Down. -/
structure Spares (n : UInt16) (p p' : Plane) (events : List PeerChangeEvent) : Prop where
  events : ∀ event ∈ events, ¬ Accuses n event
  state : ∀ info', p'.members.find n = some info' → info'.state = .suspect ∨ info'.state = .down →
    ∃ info, p.members.find n = some info ∧ info.state = info'.state

theorem Spares.refl : Spares n p p [] := ⟨by simp, fun info h _ => ⟨info, h, rfl⟩⟩

theorem Spares.trans {events events' : List PeerChangeEvent} (h : Spares n p p' events)
    (k : Spares n p' p'' events') : Spares n p p'' (events ++ events') := by
  constructor
  · intro event hevent
    rcases List.mem_append.mp hevent with hevent | hevent
    · exact h.events event hevent
    · exact k.events event hevent
  · intro info'' hinfo'' hstate
    obtain ⟨info', hinfo', heq⟩ := k.state info'' hinfo'' hstate
    obtain ⟨info, hinfo, heq'⟩ := h.state info' hinfo' (heq ▸ hstate)
    exact ⟨info, hinfo, heq'.trans heq⟩

/-- The node has not been seen for the whole grace period. -/
def Late (p : Plane) (now : ℕ) (node : NodeInfo) : Prop :=
  ∃ lastSeen, node.lastSeen = some lastSeen ∧ now > p.config.missedAfter lastSeen

/-- What the check of one node does to the member table, and the events it sends. -/
inductive Checked (p : Plane) (now : ℕ) (node : NodeInfo) :
    MemberTable → List PeerChangeEvent → Prop
  | kept : Checked p now node p.members []
  | recovered :
      Checked p now node (p.members.markActive node.nodeId) [.recovered node.nodeId]
  | suspected (hlate : p.Late now node) :
      Checked p now node (p.members.markSuspect node.nodeId) [.suspect node.nodeId]
  | downed (hlate : p.Late now node) :
      Checked p now node (p.members.markDown node.nodeId) [.down node.nodeId node.epoch]
  | suspectedDowned (hlate : p.Late now node) :
      Checked p now node ((p.members.markSuspect node.nodeId).markDown node.nodeId)
        [.suspect node.nodeId, .down node.nodeId node.epoch]

theorem checkHeartbeat_checked (p : Plane) (now : ℕ) (node : NodeInfo) :
    (p.checkHeartbeat now node).1.config = p.config ∧
      Checked p now node (p.checkHeartbeat now node).1.members (p.checkHeartbeat now node).2 := by
  unfold checkHeartbeat
  split
  · exact ⟨rfl, .kept⟩
  · split
    · exact ⟨rfl, .kept⟩
    · rename_i lastSeen hseen
      split
      · rename_i hnow
        have hlate : p.Late now node := ⟨lastSeen, hseen, hnow⟩
        dsimp only
        split
        · by_cases hactive : node.state = .active
          · simp only [if_pos hactive]
            split
            · exact ⟨rfl, .suspectedDowned hlate⟩
            · exact ⟨rfl, .suspected hlate⟩
          · simp only [if_neg hactive]
            split
            · exact ⟨rfl, .downed hlate⟩
            · exact ⟨rfl, .kept⟩
        · exact ⟨rfl, .kept⟩
      · split
        · dsimp only
          split
          · exact ⟨rfl, .recovered⟩
          · exact ⟨rfl, .kept⟩
        · exact ⟨rfl, .kept⟩

theorem Checked.marked {node : NodeInfo} {members : MemberTable}
    {events : List PeerChangeEvent} (h : Checked p now node members events) :
    MemberTable.Marked node.nodeId p.members members := by
  cases h with
  | kept => exact .refl
  | recovered => exact MemberTable.Marked.refl.markActive
  | suspected => exact MemberTable.Marked.refl.markSuspect
  | downed => exact MemberTable.Marked.refl.markDown
  | suspectedDowned => exact MemberTable.Marked.refl.markSuspect.markDown

theorem Checked.not_accuses {node : NodeInfo} {members : MemberTable}
    {events : List PeerChangeEvent} (h : Checked p now node members events)
    (hnode : node.nodeId ≠ n) : ∀ event ∈ events, ¬ Accuses n event := by
  cases h <;> simp [Accuses, hnode]

/-- The check of another node, or of one that was seen recently, spares a node. -/
theorem checkHeartbeat_spares (node : NodeInfo) (hnode : node.nodeId = n → ¬ p.Late now node) :
    Spares n p (p.checkHeartbeat now node).1 (p.checkHeartbeat now node).2 := by
  obtain ⟨-, hchecked⟩ := p.checkHeartbeat_checked now node
  by_cases hn : node.nodeId = n
  · generalize (p.checkHeartbeat now node).2 = events at hchecked
    generalize hmembers : (p.checkHeartbeat now node).1.members = members at hchecked
    cases hchecked with
    | kept =>
      refine ⟨by simp, ?_⟩
      rw [hmembers]
      exact Spares.refl.state
    | recovered =>
      refine ⟨by simp [Accuses], ?_⟩
      rw [hmembers]
      intro info' hinfo' hstate
      rw [← hn, MemberTable.find_markActive] at hinfo'
      obtain ⟨old, -, rfl⟩ := Option.map_eq_some_iff.mp hinfo'
      simp at hstate
    | suspected hlate => exact absurd hlate (hnode hn)
    | downed hlate => exact absurd hlate (hnode hn)
    | suspectedDowned hlate => exact absurd hlate (hnode hn)
  · refine ⟨hchecked.not_accuses hn, ?_⟩
    rw [hchecked.marked.find_ne (Ne.symm hn)]
    exact Spares.refl.state

theorem checkHeartbeats_config (now : ℕ) (nodes : List NodeInfo) (p : Plane) :
    (checkHeartbeats now nodes p).1.config = p.config := by
  induction nodes generalizing p with
  | nil => rfl
  | cons node nodes ih =>
    simp only [checkHeartbeats]
    rw [ih, (p.checkHeartbeat_checked now node).1]

theorem checkHeartbeats_keepsSeen (now : ℕ) (nodes : List NodeInfo) (p : Plane) :
    MemberTable.KeepsSeen n now p.members (checkHeartbeats now nodes p).1.members := by
  induction nodes generalizing p with
  | nil => exact .refl
  | cons node nodes ih =>
    exact (p.checkHeartbeat_checked now node).2.marked.keepsSeen.trans (ih _)

theorem checkHeartbeats_distinct (now : ℕ) (nodes : List NodeInfo) (p : Plane)
    (h : p.members.Distinct) : (checkHeartbeats now nodes p).1.members.Distinct := by
  induction nodes generalizing p with
  | nil => exact h
  | cons node nodes ih => exact ih _ ((p.checkHeartbeat_checked now node).2.marked.distinct h)

theorem checkHeartbeats_spares (now : ℕ) (nodes : List NodeInfo) (p : Plane)
    (h : ∀ node ∈ nodes, node.nodeId = n → ¬ p.Late now node) :
    Spares n p (checkHeartbeats now nodes p).1 (checkHeartbeats now nodes p).2 := by
  induction nodes generalizing p with
  | nil => exact .refl
  | cons node nodes ih =>
    apply (checkHeartbeat_spares node (h node List.mem_cons_self)).trans
    apply ih
    intro other hother hn hlate
    apply h other (List.mem_cons_of_mem _ hother) hn
    rwa [Late, (p.checkHeartbeat_checked now node).1] at hlate

/-! ## Messages -/

theorem foldl_learn_keepsSeen (nodes : List SnapshotNodeInfo) (p : Plane) :
    MemberTable.KeepsSeen n now p.members
      (nodes.foldl (fun p node => p.learn now node) p).members := by
  induction nodes generalizing p with
  | nil => exact .refl
  | cons node nodes ih =>
    have hhead : MemberTable.KeepsSeen n now p.members (p.learn now node).members := by
      unfold learn
      split_ifs
      · exact .refl
      · exact MemberTable.keepsSeen_upsert _
    exact hhead.trans (ih _)

theorem foldl_learn_distinct (nodes : List SnapshotNodeInfo) (p : Plane)
    (h : p.members.Distinct) :
    (nodes.foldl (fun p node => p.learn now node) p).members.Distinct := by
  induction nodes generalizing p with
  | nil => exact h
  | cons node nodes ih =>
    have hhead : (p.learn now node).members.Distinct := by
      unfold learn
      split_ifs
      · exact h
      · exact MemberTable.distinct_upsert _ h
    exact ih _ hhead

theorem processControlMessage_keepsSeen (p : Plane) (peerTx : PeerTx) (now : ℕ) (msg : ControlMsg) :
    MemberTable.KeepsSeen n now p.members (p.processControlMessage peerTx now msg).1.members := by
  cases msg with
  | hello hello => exact MemberTable.keepsSeen_upsert _
  | helloAck hello => exact MemberTable.keepsSeen_upsert _
  | join join => exact MemberTable.keepsSeen_upsert _
  | heartbeat hb => exact MemberTable.keepsSeen_updateLastSeen _
  | heartbeatAck hb => exact MemberTable.keepsSeen_updateLastSeen _
  | memberDown md => exact MemberTable.Marked.refl.markDown.keepsSeen
  | memberSnapshot snapshot => exact foldl_learn_keepsSeen snapshot.nodes p
  | _ => exact .refl

theorem processControlMessage_distinct (p : Plane) (peerTx : PeerTx) (now : ℕ) (msg : ControlMsg)
    (h : p.members.Distinct) : (p.processControlMessage peerTx now msg).1.members.Distinct := by
  cases msg with
  | hello hello => exact MemberTable.distinct_upsert _ h
  | helloAck hello => exact MemberTable.distinct_upsert _ h
  | join join => exact MemberTable.distinct_upsert _ h
  | heartbeat hb => exact MemberTable.distinct_modify (fun _ hm => hm) h
  | heartbeatAck hb => exact MemberTable.distinct_modify (fun _ hm => hm) h
  | memberDown md => exact MemberTable.Marked.refl.markDown.distinct h
  | memberSnapshot snapshot => exact foldl_learn_distinct snapshot.nodes p h
  | _ => exact h

theorem processControlMessage_config (p : Plane) (peerTx : PeerTx) (now : ℕ) (msg : ControlMsg) :
    (p.processControlMessage peerTx now msg).1.config = p.config := by
  cases msg with
  | memberSnapshot snapshot =>
    simp only [processControlMessage]
    induction snapshot.nodes generalizing p with
    | nil => rfl
    | cons node nodes ih => rw [List.foldl_cons, ih, config_learn]
  | _ => rfl

end Plane

/-! ## Whole runs -/

/-- A control plane with the last reading of its clock. -/
structure Clocked where
  plane : Plane
  clock : ℕ

inductive ClockedInput
  | message (peerTx : PeerTx) (now : ℕ) (msg : ControlMsg)
  | tick (now : ℕ)

namespace ClockedInput

def now : ClockedInput → ℕ
  | message _ now _ => now
  | tick now => now

def Greets (n : UInt16) : ClockedInput → Prop
  | message _ _ (.hello hello) => hello.nodeId = n
  | message _ _ (.helloAck hello) => hello.nodeId = n
  | message _ _ (.join join) => join.nodeId = n
  | _ => False

/-- A heartbeat of the node, or its answer to one. -/
def Beats (n : UInt16) : ClockedInput → Prop
  | message _ _ (.heartbeat hb) => hb.nodeId = n
  | message _ _ (.heartbeatAck hb) => hb.nodeId = n
  | _ => False

end ClockedInput

namespace Clocked

variable (s : Clocked)

def step : ClockedInput → Clocked × List PeerChangeEvent
  | .message peerTx now msg =>
    let out := s.plane.processControlMessage peerTx now msg
    (⟨out.1, now⟩, out.2.events)
  | .tick now =>
    let out := s.plane.heartbeatTick now
    (⟨out.1, now⟩, out.2.2)

def OnTime (_ : List PeerChangeEvent) (input : ClockedInput) : Prop := s.clock ≤ input.now

def start (config : PlaneConfig) (localEpoch : UInt32) (mrTable : Option MrTable)
    (memory : Memory) (now : ℕ) (controlListen : String) : Clocked :=
  ⟨(Plane.new config localEpoch mrTable memory).registerSelf now controlListen, now⟩

variable {s} {n : UInt16} {t : ℕ} (input : ClockedInput)

theorem step_clock : (s.step input).1.clock = input.now := by
  cases input <;> rfl

theorem step_config : (s.step input).1.plane.config = s.plane.config := by
  cases input with
  | message peerTx now msg => exact s.plane.processControlMessage_config peerTx now msg
  | tick now => exact Plane.checkHeartbeats_config now s.plane.members.list s.plane

theorem step_keepsSeen :
    MemberTable.KeepsSeen n input.now s.plane.members (s.step input).1.plane.members := by
  cases input with
  | message peerTx now msg => exact s.plane.processControlMessage_keepsSeen peerTx now msg
  | tick now => exact Plane.checkHeartbeats_keepsSeen now s.plane.members.list s.plane

theorem step_distinct (h : s.plane.members.Distinct) :
    (s.step input).1.plane.members.Distinct := by
  cases input with
  | message peerTx now msg => exact s.plane.processControlMessage_distinct peerTx now msg h
  | tick now => exact Plane.checkHeartbeats_distinct now s.plane.members.list s.plane h

structure KnownSince (n : UInt16) (t : ℕ) (s : Clocked) : Prop where
  clock : t ≤ s.clock
  known : ∃ info, s.plane.members.find n = some info

structure SeenSince (n : UInt16) (t : ℕ) (s : Clocked) : Prop where
  clock : t ≤ s.clock
  seen : ∃ info lastSeen, s.plane.members.find n = some info ∧
    info.lastSeen = some lastSeen ∧ t ≤ lastSeen ∧ lastSeen ≤ s.clock

theorem KnownSince.step (h : KnownSince n t s) {input : ClockedInput}
    (hinput : s.clock ≤ input.now) : KnownSince n t (s.step input).1 := by
  obtain ⟨info, hinfo⟩ := h.known
  obtain ⟨info', hinfo', -⟩ := step_keepsSeen input info hinfo
  refine ⟨?_, info', hinfo'⟩
  rw [step_clock]
  exact h.clock.trans hinput

theorem SeenSince.step (h : SeenSince n t s) {input : ClockedInput}
    (hinput : s.clock ≤ input.now) : SeenSince n t (s.step input).1 := by
  obtain ⟨info, lastSeen, hinfo, hseen, ht, hlast⟩ := h.seen
  obtain ⟨info', hinfo', hseen'⟩ := step_keepsSeen input info hinfo
  have hnow : t ≤ input.now := h.clock.trans hinput
  constructor
  · rwa [step_clock]
  · rw [step_clock]
    rcases hseen' with hsame | hnew
    · exact ⟨info', lastSeen, hinfo', hsame.trans hseen, ht, hlast.trans hinput⟩
    · exact ⟨info', input.now, hinfo', hnew, hnow, le_rfl⟩

theorem KnownSince.beat (h : KnownSince n t s) {input : ClockedInput}
    (hinput : s.clock ≤ input.now) (hbeats : input.Beats n) : SeenSince n t (s.step input).1 := by
  obtain ⟨info, hinfo⟩ := h.known
  have hnow : t ≤ input.now := h.clock.trans hinput
  have hfind : (s.step input).1.plane.members.find n =
      some { info with lastSeen := some input.now } := by
    cases input with
    | tick now => exact hbeats.elim
    | message peerTx now msg =>
      cases msg with
      | heartbeat hb =>
        obtain rfl : hb.nodeId = n := hbeats
        exact (MemberTable.find_updateLastSeen _ now).trans (by rw [hinfo]; rfl)
      | heartbeatAck hb =>
        obtain rfl : hb.nodeId = n := hbeats
        exact (MemberTable.find_updateLastSeen _ now).trans (by rw [hinfo]; rfl)
      | _ => exact hbeats.elim
  exact ⟨by rwa [step_clock], _, input.now, hfind, rfl, hnow, (step_clock input).ge⟩

/-- A greeting makes the node known, and a new node seen at that time. -/
theorem greet_find {input : ClockedInput} (hgreets : input.Greets n) :
    ∃ info, (s.step input).1.plane.members.find n = some info ∧
      (s.plane.members.find n = none → info.lastSeen = some input.now) := by
  have hupsert : ∀ info : NodeInfo, info.nodeId = n → info.lastSeen = some input.now →
      ∃ info', (s.plane.members.upsert info).find n = some info' ∧
        (s.plane.members.find n = none → info'.lastSeen = some input.now) := by
    rintro info rfl hseen
    rw [MemberTable.find_upsert, if_pos rfl]
    refine ⟨_, rfl, ?_⟩
    intro hnone
    rw [hnone]
    exact hseen
  cases input with
  | tick now => exact hgreets.elim
  | message peerTx now msg =>
    cases msg with
    | hello hello => exact hupsert _ hgreets rfl
    | helloAck hello => exact hupsert _ hgreets rfl
    | join join => exact hupsert _ hgreets rfl
    | _ => exact hgreets.elim

/-- A tick within the grace period after the node was seen spares it. -/
theorem SeenSince.spares (h : SeenSince n t s) (hdistinct : s.plane.members.Distinct) {now : ℕ}
    (hfits : s.clock + s.plane.config.heartbeatIntervalMs * s.plane.config.failAfter.toNat <
      2 ^ 64)
    (hnow : now ≤ t + s.plane.config.heartbeatIntervalMs * s.plane.config.failAfter.toNat) :
    Plane.Spares n s.plane (s.plane.heartbeatTick now).1 (s.plane.heartbeatTick now).2.2 := by
  apply Plane.checkHeartbeats_spares
  rintro node hnode rfl ⟨lastSeen, hlast, hlate⟩
  obtain ⟨entry, hentry, rfl⟩ := List.mem_map.mp hnode
  obtain ⟨info, seen, hinfo, hseen, ht, hclock⟩ := h.seen
  have hfind : s.plane.members.find entry.nodeId = some entry :=
    Maps.find?_of_mem hdistinct hentry
  obtain rfl := Option.some.inj (hinfo.symm.trans hfind)
  obtain rfl := Option.some.inj (hseen.symm.trans hlast)
  rw [PlaneConfig.missedAfter, Nat.mod_eq_of_lt (by omega)] at hlate
  omega

theorem distinct_run (h : s.plane.members.Distinct) (inputs : List ClockedInput) :
    (Runs.run step s inputs).1.plane.members.Distinct := by
  induction inputs generalizing s with
  | nil => exact h
  | cons input inputs ih => exact ih (step_distinct input h)

theorem config_run (inputs : List ClockedInput) :
    (Runs.run step s inputs).1.plane.config = s.plane.config := by
  induction inputs generalizing s with
  | nil => rfl
  | cons input inputs ih => exact ih.trans (step_config input)

theorem seenSince_run (h : SeenSince n t s) {log : List PeerChangeEvent}
    {inputs : List ClockedInput} (htime : Runs.Meets step OnTime s log inputs) :
    SeenSince n t (Runs.run step s inputs).1 :=
  Runs.run_invariant (I := fun s _ => SeenSince n t s) (fun _ _ _ h hinput => h.step hinput) h
    htime

/-- A known node that sends a heartbeat in a run has been seen at its end. -/
theorem seenSince_run_of_beat (h : KnownSince n t s) {log : List PeerChangeEvent}
    {inputs : List ClockedInput} (htime : Runs.Meets step OnTime s log inputs)
    (hbeat : ∃ input ∈ inputs, input.Beats n) : SeenSince n t (Runs.run step s inputs).1 := by
  induction inputs generalizing s log with
  | nil =>
    obtain ⟨input, hinput, -⟩ := hbeat
    cases hinput
  | cons first inputs ih =>
    obtain ⟨input, hinput, hbeats⟩ := hbeat
    rcases List.mem_cons.mp hinput with rfl | hinput
    · exact seenSince_run (h.beat htime.1 hbeats) htime.2
    · exact ih (h.step htime.1) htime.2 ⟨input, hinput, hbeats⟩

/-- After a greeting no tick within the grace period accuses the node or marks it
Suspect or Down, if the node was new at the greeting or has sent a heartbeat since, as long
as the end of a grace period is a 64-bit time. -/
theorem rejoin_grace_period (config : PlaneConfig) (localEpoch : UInt32)
    (mrTable : Option MrTable) (memory : Memory) (now₀ : ℕ) (controlListen : String)
    (earlier later : List ClockedInput) (greeting : ClockedInput) (n : UInt16)
    (hgreets : greeting.Greets n)
    (htime : Runs.Meets step OnTime
      (start config localEpoch mrTable memory now₀ controlListen) []
      (earlier ++ greeting :: later))
    (hseen : (Runs.run step (start config localEpoch mrTable memory now₀ controlListen)
        earlier).1.plane.members.find n = none ∨ ∃ input ∈ later, input.Beats n)
    (hfits : (Runs.run step (start config localEpoch mrTable memory now₀ controlListen)
        (earlier ++ greeting :: later)).1.clock +
      config.heartbeatIntervalMs * config.failAfter.toNat < 2 ^ 64)
    (now : ℕ)
    (hnow : now ≤ greeting.now + config.heartbeatIntervalMs * config.failAfter.toNat) :
    let s := (Runs.run step (start config localEpoch mrTable memory now₀ controlListen)
      (earlier ++ greeting :: later)).1
    Plane.Spares n s.plane (s.plane.heartbeatTick now).1 (s.plane.heartbeatTick now).2.2 := by
  intro s
  obtain ⟨-, hgreeting, hlater⟩ := htime.split
  set before := (Runs.run step (start config localEpoch mrTable memory now₀ controlListen)
    earlier).1 with hbefore
  have hclock : (before.step greeting).1.clock = greeting.now := step_clock greeting
  have hs : s = (Runs.run step (before.step greeting).1 later).1 := by
    show (Runs.run step _ (earlier ++ greeting :: later)).1 = _
    rw [Runs.run_append, Runs.run_cons]
  have hsince : SeenSince n greeting.now s := by
    obtain ⟨info, hinfo, hnew⟩ := greet_find (s := before) hgreets
    rw [hs]
    rcases hseen with hnone | hbeat
    · have hfresh : SeenSince n greeting.now (before.step greeting).1 :=
        ⟨hclock.ge, info, greeting.now, hinfo, hnew hnone, Nat.le_refl _, hclock.ge⟩
      exact seenSince_run hfresh hlater
    · exact seenSince_run_of_beat ⟨hclock.ge, info, hinfo⟩ hlater hbeat
  have hdistinct : s.plane.members.Distinct := by
    apply distinct_run
    exact MemberTable.distinct_upsert _ List.nodup_nil
  have hconfig : s.plane.config = config := config_run _
  exact hsince.spares hdistinct (by rwa [hconfig]) (by rwa [hconfig])

/-- A node with an interval of a second that suspects after three missed rounds. -/
def watchingNode : Clocked :=
  start ⟨1, "a:1", 64, 1000, 3⟩ 5 none (fun _ => ⟨.memory, 0, []⟩) 0 "a:2"

/-- The HELLO of node `2`. -/
def helloAt (now : ℕ) : ClockedInput := .message 7 now (.hello ⟨2, 1, 6, 64, "b:1"⟩)

/-- Ticks until node `2`, which has not been heard of since its HELLO, is Down. -/
def silence : List ClockedInput :=
  [.tick 3001, .tick 4001, .tick 5001, .tick 6001, .tick 7001, .tick 8001]

theorem rejoin_grace_period_heartbeat :
    let s := (Runs.run step watchingNode
      (helloAt 0 :: silence ++ helloAt 9000 :: [.message 7 9000 (.heartbeat ⟨2, 0⟩)])).1
    Plane.Spares 2 s.plane (s.plane.heartbeatTick 9001).1 (s.plane.heartbeatTick 9001).2.2 := by
  apply rejoin_grace_period ⟨1, "a:1", 64, 1000, 3⟩ 5 none (fun _ => ⟨.memory, 0, []⟩) 0 "a:2"
    (helloAt 0 :: silence) [.message 7 9000 (.heartbeat ⟨2, 0⟩)] (helloAt 9000) 2
  · rfl
  · simp [Runs.Meets, OnTime, silence, helloAt, ClockedInput.now, step, start]
  · exact Or.inr ⟨_, List.mem_singleton_self _, rfl⟩
  · decide
  · decide

/-- Node `2` comes back: the tick after its HELLO suspects it and takes it down. -/
theorem rejoined_node_taken_down :
    let s := (Runs.run step watchingNode (helloAt 0 :: silence ++ [helloAt 9000])).1
    (s.plane.heartbeatTick 9001).2.2 = [.suspect 2, .down 2 6] ∧
      (s.plane.members.find 2).map NodeInfo.state = some .active ∧
      ((s.plane.heartbeatTick 9001).1.members.find 2).map NodeInfo.state = some .down := by
  decide

end Clocked
end UniBus.Control
