import Mathlib.Data.List.DropRight
import UniBus.Transport.Delivery

/-!
# Execution records of a session

The session keeps the numbers of the last 1024 frames it executed. This module
says how the operations that the engine calls while it dispatches a frame act on
the records and the receive window of one peer.
-/
namespace UniBus.Transport

open Wire

theorem rtake_rtake_concat {α : Type*} (n : ℕ) (l : List α) (x : α) :
    (l.rtake n ++ [x]).rtake n = (l ++ [x]).rtake n := by
  cases n with
  | zero => simp
  | succ n =>
    rw [List.rtake_concat_succ, List.rtake_concat_succ]
    simp [List.rtake_eq_reverse_take_reverse, List.take_take]

/-- The records of a session that executed `seqs`, oldest first. -/
def recordsOf (seqs : List ℕ) : List (ℕ × Bool) := (seqs.rtake 1024).map fun s => (s, true)

namespace ReliableSession

variable {session : ReliableSession} {seqs : List ℕ}

theorem isExecuted_recordsOf (h : session.executionRecords = recordsOf seqs) (seq : ℕ) :
    session.isExecuted seq = true ↔ seq ∈ seqs.rtake 1024 := by
  simp [isExecuted, h, recordsOf]

theorem executionRecords_markExecuted (h : session.executionRecords = recordsOf seqs) {seq : ℕ}
    (hnew : session.isExecuted seq = false) :
    (session.markExecuted seq).executionRecords = recordsOf (seqs ++ [seq]) := by
  have hnone : (session.executionRecords.any fun r => r.1 == seq) = false := by
    simpa [isExecuted, h, recordsOf] using hnew
  unfold markExecuted
  rw [hnone]
  simp only [Bool.false_eq_true, if_false]
  have hmap : recordsOf seqs ++ [(seq, true)] =
      (seqs.rtake 1024 ++ [seq]).map fun s => (s, true) := by
    rw [recordsOf, List.map_append, List.map_singleton]
  rw [h, hmap, recordsOf, ← rtake_rtake_concat, ← List.map_drop, List.length_map]
  rfl

@[simp] theorem markExecuted_dedup (s : ReliableSession) (seq : ℕ) :
    (s.markExecuted seq).dedup = s.dedup := by
  unfold markExecuted
  split_ifs <;> rfl

@[simp] theorem markExecuted_state (s : ReliableSession) (seq : ℕ) :
    (s.markExecuted seq).state = s.state := by
  unfold markExecuted
  split_ifs <;> rfl

/-- The receiving side of a session: its state, window and records. -/
structure SameReceiver (s s' : ReliableSession) : Prop where
  state : s'.state = s.state
  dedup : s'.dedup = s.dedup
  executionRecords : s'.executionRecords = s.executionRecords

theorem SameReceiver.refl (s : ReliableSession) : SameReceiver s s := ⟨rfl, rfl, rfl⟩

theorem SameReceiver.trans {s₁ s₂ s₃ : ReliableSession} (h : SameReceiver s₁ s₂)
    (k : SameReceiver s₂ s₃) : SameReceiver s₁ s₃ :=
  ⟨k.state.trans h.state, k.dedup.trans h.dedup, k.executionRecords.trans h.executionRecords⟩

theorem sameReceiver_consumeCredit {s s' : ReliableSession} (h : s.consumeCredit = .ok s') :
    SameReceiver s s' := by
  obtain ⟨-, rfl⟩ := consumeCredit_ok h
  exact ⟨rfl, rfl, rfl⟩

theorem sameReceiver_processAckForFastRetransmit (s : ReliableSession) (ack : AckPayload) :
    SameReceiver s (s.processAckForFastRetransmit ack).1 := by
  obtain ⟨lastAckSeq, dupAckCount, heq⟩ := s.processAckForFastRetransmit_eq ack
  rw [heq]
  exact ⟨rfl, rfl, rfl⟩

theorem sameReceiver_processAck (s : ReliableSession) (now : Instant) (ack : AckPayload) :
    SameReceiver s (s.processAck now ack).1 := by
  rcases s.processAck_cases now ack with ⟨-, heq⟩ | ⟨-, srtt, rttvar, rto, heq⟩
  · rw [heq]
    exact ⟨rfl, rfl, rfl⟩
  · rw [heq]
    exact ⟨rfl, rfl, rfl⟩

end ReliableSession

/-- An active session of a peer whose epoch is recorded. -/
structure LiveSession (m : TransportManager) (peer : UInt16) (session : ReliableSession) :
    Prop extends ActiveSession m peer session where
  known : (m.peerEpochs.lookup peer).isSome = true

theorem createSession_live {m m' : TransportManager} {peer : UInt16} {epoch credits : UInt32}
    (h : m.createSession peer epoch credits = .ok m') :
    LiveSession m' peer
      (.new m.localNodeId peer epoch m.config.rtoMs m.config.maxRetries credits) := by
  refine ⟨createSession_active h, ?_⟩
  unfold TransportManager.createSession at h
  dsimp only at h
  split_ifs at h
  cases h
  rw [AList.lookup_insert]
  rfl

section
variable {m m' : TransportManager} {peer : UInt16} {session : ReliableSession}

namespace LiveSession

section
variable (h : LiveSession m peer session)
include h

theorem findSession :
    m.findSession peer = some (m.currentKey peer, session) := by
  obtain ⟨epoch, hepoch⟩ := Option.isSome_iff_exists.mp h.known
  have hkey : m.currentKey peer = m.keyFor peer epoch := by
    rw [TransportManager.currentKey, hepoch, Option.getD_some]
  have hlookup := h.lookup
  rw [hkey] at hlookup
  simp only [TransportManager.findSession, hepoch, hlookup, hkey, Option.map_some]

theorem isExecuted (seq : ℕ) :
    m.isExecuted peer seq = session.isExecuted seq := by
  simp only [TransportManager.isExecuted, h.findSession]

theorem modifySession {f : ReliableSession → ReliableSession}
    (hf : (f session).state = session.state) :
    LiveSession (m.modifySession peer f) peer (f session) := by
  simp only [TransportManager.modifySession, h.findSession]
  exact ⟨⟨AList.lookup_insert _, hf.trans h.active⟩, h.known⟩

theorem modifySession_ne {node : UInt16} (hne : node ≠ peer)
    (f : ReliableSession → ReliableSession) :
    LiveSession (m.modifySession node f) peer session := by
  unfold TransportManager.modifySession TransportManager.findSession
  cases hepoch : m.peerEpochs.lookup node with
  | none => exact h
  | some epoch =>
    cases hlookup : m.sessions.lookup (m.keyFor node epoch) with
    | none => simpa [hlookup] using h
    | some other =>
      simp only [hlookup, Option.map_some]
      refine ⟨⟨?_, h.active⟩, h.known⟩
      have hkey : m.currentKey peer ≠ m.keyFor node epoch := fun heq =>
        hne (congrArg SessionKey.remoteNode heq).symm
      exact (AList.lookup_insert_ne hkey).trans h.lookup

theorem known_arrive (f : DataFrame) :
    ((arrive m f).1.peerEpochs.lookup peer).isSome = true := by
  rw [Transport.arrive, TransportManager.handleDataFrame_peerEpochs]
  exact h.known

theorem arrive (f : DataFrame) :
    ∃ session', LiveSession (arrive m f).1 peer session' ∧
      session'.executionRecords = session.executionRecords := by
  have hknown := h.known_arrive f
  by_cases hf : f.SequencedFrom peer
  · obtain ⟨-, session', hs', -, hrecords⟩ := h.arrive_sequenced hf
    exact ⟨session', ⟨hs', hknown⟩, hrecords⟩
  · exact ⟨session, ⟨(h.arrive_other hf).1, hknown⟩, rfl⟩

end

end LiveSession

/-- The step from `m` to `m'` keeps the receiving side of the peer's session. -/
def Keeps (peer : UInt16) (m m' : TransportManager) : Prop :=
  ∀ session, LiveSession m peer session → ∃ session', LiveSession m' peer session' ∧
    session.SameReceiver session'

namespace Keeps

theorem refl (m : TransportManager) : Keeps peer m m := fun session h => ⟨session, h, .refl _⟩

theorem trans {m₁ m₂ m₃ : TransportManager} (h : Keeps peer m₁ m₂) (k : Keeps peer m₂ m₃) :
    Keeps peer m₁ m₃ := by
  intro session hs
  obtain ⟨s₂, h₂, hsame₂⟩ := h session hs
  obtain ⟨s₃, h₃, hsame₃⟩ := k s₂ h₂
  exact ⟨s₃, h₃, hsame₂.trans hsame₃⟩

theorem of_eq (hsessions : m'.sessions = m.sessions) (hepochs : m'.peerEpochs = m.peerEpochs)
    (hnode : m'.localNodeId = m.localNodeId) : Keeps peer m m' := by
  intro session hs
  have hkey : m'.currentKey peer = m.currentKey peer := by
    simp [TransportManager.currentKey, TransportManager.keyFor, hepochs, hnode]
  refine ⟨session, ⟨⟨?_, hs.active⟩, ?_⟩, .refl _⟩
  · rw [hsessions, hkey]
    exact hs.lookup
  · rw [hepochs]
    exact hs.known

theorem of_touches (h : m.Touches ReliableSession.SameReceiver m') : Keeps peer m m' := by
  intro session hs
  have hkey : m'.currentKey peer = m.currentKey peer := by
    simp [TransportManager.currentKey, TransportManager.keyFor, h.peerEpochs, h.localNodeId]
  obtain ⟨session', hlookup', hsame⟩ := h.after .refl hs.lookup
  refine ⟨session', ⟨⟨?_, hsame.state.trans hs.active⟩, ?_⟩, hsame⟩
  · rw [hkey]
    exact hlookup'
  · rw [h.peerEpochs]
    exact hs.known

theorem modifySession {f : ReliableSession → ReliableSession}
    (hf : ∀ s : ReliableSession, s.SameReceiver (f s)) (m : TransportManager) (node : UInt16) :
    Keeps peer m (m.modifySession node f) :=
  of_touches (.modifySession m node hf)

theorem sendFrameToPeer (m : TransportManager) (node : UInt16) (data : List UInt8) :
    Keeps peer m (m.sendFrameToPeer node data) :=
  of_eq (by simp) (by simp) (by simp)

theorem readCacheInsert (m : TransportManager) (now : Instant) (node : UInt16) (key : CacheKey)
    (response : List UInt8) : Keeps peer m (m.readCacheInsert now node key response) := by
  apply modifySession
  exact fun _ => ⟨rfl, rfl, rfl⟩

theorem readCacheGet (m : TransportManager) (now : Instant) (node : UInt16) (key : CacheKey) :
    Keeps peer m (m.readCacheGet now node key).1 := by
  rw [m.readCacheGet_eq]
  apply modifySession
  exact fun _ => ⟨rfl, rfl, rfl⟩

theorem completeRequest (m : TransportManager) (node : UInt16) (opaqueId : UInt64) :
    Keeps peer m (m.completeRequest node opaqueId) := by
  apply modifySession
  exact fun _ => ⟨rfl, rfl, rfl⟩

theorem handleCreditFrame (m : TransportManager) (header : FrameHeader) (payload : List UInt8) :
    Keeps peer m (m.handleCreditFrame header payload) := by
  apply of_touches ((TransportManager.Touches.handleCreditFrame m header payload).mono _)
  rintro s s' ⟨credits, rfl⟩
  exact ⟨rfl, rfl, rfl⟩

theorem handleAckFrame (m : TransportManager) (now : Instant) (header : FrameHeader)
    (payload : List UInt8) : Keeps peer m (m.handleAckFrame now header payload) := by
  apply of_touches ((TransportManager.Touches.handleAckFrame m now header payload).mono _)
  rintro s s' ⟨ack, rfl⟩
  exact (s.sameReceiver_processAckForFastRetransmit ack).trans
    ((s.processAckForFastRetransmit ack).1.sameReceiver_processAck now ack)

theorem send (m : TransportManager) (now : Instant) (node : UInt16) (frame : List UInt8)
    (isFireAndForget : Bool) (opaqueId : UInt64) :
    Keeps peer m (m.send now node frame isFireAndForget opaqueId).1 := by
  apply of_touches
    ((TransportManager.Touches.send m now node frame isFireAndForget opaqueId).mono _)
  rintro s s' ⟨-, paid, hcredit, rfl⟩
  exact (ReliableSession.sameReceiver_consumeCredit hcredit).trans ⟨rfl, rfl, rfl⟩

end Keeps

theorem Ordered.of_dedup_eq {log : List InboundFrame} {session' : ReliableSession}
    (h : Ordered peer m log) (hs : LiveSession m peer session)
    (hs' : LiveSession m' peer session') (hdedup : session'.dedup = session.dedup) :
    Ordered peer m' log := by
  obtain ⟨⟨s, hactive, hw, hbelow⟩, hinc⟩ := h
  obtain rfl : s = session := Option.some.inj (hactive.lookup.symm.trans hs.lookup)
  exact ⟨⟨session', hs'.toActiveSession, by rw [hdedup]; exact hw, by rw [hdedup]; exact hbelow⟩,
    hinc⟩

/-- The peer's window expects `next` and has no gap, and the frames with the
numbers `seqs` were executed. -/
structure Receiving (m : TransportManager) (peer : UInt16) (next : ℕ) (seqs : List ℕ)
    (session : ReliableSession) : Prop extends LiveSession m peer session where
  windowSize_pos : 0 < session.dedup.windowSize
  nextExpected : session.dedup.nextExpected = next
  refines : session.dedup.Refines 1 (Set.Ico 1 next)
  records : session.executionRecords = recordsOf seqs

namespace Receiving

variable {next : ℕ} {seqs : List ℕ} {f : DataFrame}

theorem isExecuted_iff (h : Receiving m peer next seqs session) (seq : ℕ) :
    m.isExecuted peer seq = true ↔ seq ∈ seqs.rtake 1024 := by
  rw [h.isExecuted]
  exact ReliableSession.isExecuted_recordsOf h.records seq

theorem arrive_next (h : Receiving m peer next seqs session) (hf : f.SequencedFrom peer)
    (hseq : f.seq = next) :
    (Transport.arrive m f).2 = [f.inbound] ∧
      ∃ session', Receiving (Transport.arrive m f).1 peer (next + 1) seqs session' := by
  obtain ⟨hout, session', hs', hdedup, hrecords⟩ := h.arrive_sequenced hf
  have hnext : f.seq = session.dedup.nextExpected := hseq.trans h.nextExpected.symm
  have hcheck := (session.dedup.check_inOrder_iff f.seq).mpr hnext
  obtain ⟨-, haction, hmark⟩ | ⟨hbad, -⟩ | ⟨hbad, -⟩ | ⟨hbad, -⟩ :=
    session.receiveFrame_cases f.seq
  · rw [hmark, hnext] at hdedup
    have hrefines := h.refines
    rw [← h.nextExpected] at hrefines
    obtain ⟨hmoved, hrefines'⟩ := hrefines.markAndAdvance_next h.windowSize_pos
    rw [haction] at hout
    rw [← hdedup] at hmoved hrefines'
    rw [h.nextExpected] at hmoved hrefines'
    refine ⟨hout, session', ⟨⟨hs', h.known_arrive f⟩, ?_, hmoved, hrefines',
      hrecords.trans h.records⟩⟩
    rw [hdedup, DedupWindow.markAndAdvance_windowSize]
    exact h.windowSize_pos
  all_goals exact absurd (hcheck.symm.trans hbad) (by simp)

theorem arrive_seen (h : Receiving m peer next seqs session) (hf : f.SequencedFrom peer)
    (hseq : f.seq < next) (hverb : isRequestVerb f.ext.verb = true) :
    (Transport.arrive m f).2 = [f.inbound] ∧
      ∃ session', Receiving (Transport.arrive m f).1 peer next seqs session' := by
  obtain ⟨hout, session', hs', hdedup, hrecords⟩ := h.arrive_sequenced hf
  have hlt : f.seq < session.dedup.nextExpected := h.nextExpected ▸ hseq
  have hcheck := (h.refines.check_cases h.windowSize_pos f.seq).1.mpr (Or.inl hlt)
  obtain ⟨hbad, -⟩ | ⟨-, haction, hmark⟩ | ⟨hbad, -⟩ | ⟨hbad, -⟩ :=
    session.receiveFrame_cases f.seq
  · omega
  · rw [hmark] at hdedup
    rw [haction, TransportManager.handedUp, DataFrame.inbound_ext, if_pos hverb] at hout
    exact ⟨hout, session', ⟨⟨hs', h.known_arrive f⟩, hdedup ▸ h.windowSize_pos,
      hdedup ▸ h.nextExpected, hdedup ▸ h.refines, hrecords.trans h.records⟩⟩
  all_goals exact absurd (hcheck.symm.trans hbad) (by simp)

end Receiving

end

theorem createSession_receiving {m m' : TransportManager} {peer : UInt16}
    {epoch credits : UInt32} (h : m.createSession peer epoch credits = .ok m') :
    ∃ session, Receiving m' peer 1 [] session := by
  have hrefines : (DedupWindow.new 1).Refines 1 (Set.Ico 1 1) := by
    rw [Set.Ico_self]
    exact DedupWindow.refines_withWindowSize 1 1024 le_rfl
  exact ⟨_, createSession_live h, Nat.succ_pos 1023, rfl, hrefines, rfl⟩

end UniBus.Transport
