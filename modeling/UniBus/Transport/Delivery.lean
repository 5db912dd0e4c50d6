import UniBus.Foundations.Runs
import UniBus.Transport.Manager

/-!
# Delivery of sequenced data frames

Runs of `handle_data_frame` over any list of arriving DATA frames, with the
frames handed to the engine as outputs. The results are about one peer; frames
of other peers and unsequenced frames may arrive in between.
-/
namespace UniBus.Transport

open Wire

/-- A decoded DATA frame at its arrival. -/
structure DataFrame where
  header : FrameHeader
  ext : DataExtHeader
  payload : List UInt8
  deriving DecidableEq, Repr

namespace DataFrame

def seq (f : DataFrame) : ℕ := f.header.streamSeq.toNat

def SequencedFrom (peer : UInt16) (f : DataFrame) : Prop := f.header.srcNode = peer ∧ f.seq ≠ 0

instance (peer : UInt16) (f : DataFrame) : Decidable (f.SequencedFrom peer) :=
  inferInstanceAs (Decidable (_ ∧ _))

/-- The frame as the engine receives it. -/
def inbound (f : DataFrame) : InboundFrame := ⟨f.header, f.ext, f.payload, f.seq⟩

@[simp] theorem inbound_ext (f : DataFrame) : f.inbound.ext = f.ext := rfl
@[simp] theorem inbound_seq (f : DataFrame) : f.inbound.seq = f.seq := rfl

end DataFrame

def arrive (m : TransportManager) (f : DataFrame) : TransportManager × List InboundFrame :=
  m.handleDataFrame f.header f.ext f.payload

/-- The sequenced frames of a peer among those handed up. -/
def handedFrames (peer : UInt16) (log : List InboundFrame) : List InboundFrame :=
  log.filter fun g => g.header.srcNode = peer ∧ g.seq ≠ 0

def handedSeqs (peer : UInt16) (log : List InboundFrame) : List ℕ :=
  (handedFrames peer log).map InboundFrame.seq

/-- The peer's current session is `session`, and it is active. -/
structure ActiveSession (m : TransportManager) (peer : UInt16) (session : ReliableSession) :
    Prop where
  lookup : m.sessions.lookup (m.currentKey peer) = some session
  active : session.state = .active

theorem createSession_active {m m' : TransportManager} {peer : UInt16} {epoch credits : UInt32}
    (h : m.createSession peer epoch credits = .ok m') :
    ActiveSession m' peer
      (.new m.localNodeId peer epoch m.config.rtoMs m.config.maxRetries credits) := by
  unfold TransportManager.createSession at h
  dsimp only at h
  split_ifs at h
  cases h
  refine ⟨?_, rfl⟩
  unfold TransportManager.currentKey
  rw [AList.lookup_insert]
  exact AList.lookup_insert _

@[simp] theorem handedFrames_append (peer : UInt16) (l k : List InboundFrame) :
    handedFrames peer (l ++ k) = handedFrames peer l ++ handedFrames peer k :=
  List.filter_append l k

@[simp] theorem handedSeqs_append (peer : UInt16) (l k : List InboundFrame) :
    handedSeqs peer (l ++ k) = handedSeqs peer l ++ handedSeqs peer k := by
  simp [handedSeqs]

section
variable {m : TransportManager} {peer : UInt16} {session : ReliableSession} {f : DataFrame}

theorem mem_arrive {g : InboundFrame} (hg : g ∈ (arrive m f).2) : g = f.inbound := by
  unfold arrive TransportManager.handleDataFrame at hg
  dsimp only at hg
  split_ifs at hg
  · exact List.mem_singleton.mp hg
  · split at hg
    · exact List.mem_singleton.mp hg
    · split_ifs at hg
      · simp at hg
      · unfold TransportManager.handedUp at hg
        split at hg
        · exact List.mem_singleton.mp hg
        · split_ifs at hg
          · exact List.mem_singleton.mp hg
          · simp at hg
        · simp at hg
        · simp at hg

theorem ActiveSession.arrive_sequenced (h : ActiveSession m peer session)
    (hf : f.SequencedFrom peer) :
    (arrive m f).2 = TransportManager.handedUp (session.receiveFrame f.seq).2 f.inbound ∧
    ∃ session', ActiveSession (arrive m f).1 peer session' ∧
      session'.dedup = (session.receiveFrame f.seq).1.dedup ∧
      session'.executionRecords = session.executionRecords := by
  obtain ⟨rfl, hseq⟩ := hf
  obtain ⟨hout, session', hsessions, hdedup, hactive, hrecords⟩ :=
    m.handleDataFrame_active f.ext f.payload hseq h.lookup h.active
  refine ⟨hout, session', ⟨?_, hactive⟩, hdedup, hrecords⟩
  unfold arrive
  rw [TransportManager.handleDataFrame_currentKey, hsessions, AList.lookup_insert]

theorem ActiveSession.arrive_other (h : ActiveSession m peer session)
    (hf : ¬ f.SequencedFrom peer) :
    ActiveSession (arrive m f).1 peer session ∧ handedFrames peer (arrive m f).2 = [] := by
  refine ⟨⟨?_, h.active⟩, ?_⟩
  · unfold arrive
    rw [TransportManager.handleDataFrame_currentKey]
    by_cases hpeer : peer = f.header.srcNode
    · have hseq : f.header.streamSeq.toNat = 0 := by
        by_contra hne
        exact hf ⟨hpeer.symm, hne⟩
      have hsame : (m.handleDataFrame f.header f.ext f.payload).1 = m := by
        simp only [TransportManager.handleDataFrame, if_pos hseq]
      rw [hsame, h.lookup]
    · rw [m.handleDataFrame_lookup_ne f.ext f.payload hpeer, h.lookup]
  · rw [handedFrames, List.filter_eq_nil_iff]
    intro g hg
    rw [mem_arrive hg]
    exact fun hsel => hf (of_decide_eq_true hsel)

theorem handedFrames_inbound (hf : f.SequencedFrom peer) :
    handedFrames peer [f.inbound] = [f.inbound] := by
  rw [handedFrames, List.filter_eq_self]
  intro g hg
  rw [List.mem_singleton.mp hg]
  exact decide_eq_true hf

theorem handedSeqs_inbound (hf : f.SequencedFrom peer) :
    handedSeqs peer [f.inbound] = [f.seq] := by
  rw [handedSeqs, handedFrames_inbound hf]
  rfl

end

/-! ## Fire-and-forget frames arrive in order -/

def isFireAndForgetVerb : Verb → Bool
  | .write | .writeImm | .send => true
  | _ => false

def fireAndForgetSeqs (peer : UInt16) (log : List InboundFrame) : List ℕ :=
  ((handedFrames peer log).filter fun g => isFireAndForgetVerb g.ext.verb).map InboundFrame.seq

/-- Everything delivered so far lies below the window. -/
structure Ordered (peer : UInt16) (m : TransportManager) (log : List InboundFrame) : Prop where
  session : ∃ session, ActiveSession m peer session ∧ 0 < session.dedup.windowSize ∧
    ∀ s ∈ fireAndForgetSeqs peer log, s < session.dedup.nextExpected
  increasing : (fireAndForgetSeqs peer log).Pairwise (· < ·)

theorem isFireAndForgetVerb_of_isRequestVerb {v : Verb} (h : isRequestVerb v = true) :
    isFireAndForgetVerb v = false := by
  cases v <;> simp_all [isRequestVerb, isFireAndForgetVerb]

@[simp] theorem fireAndForgetSeqs_append (peer : UInt16) (l k : List InboundFrame) :
    fireAndForgetSeqs peer (l ++ k) = fireAndForgetSeqs peer l ++ fireAndForgetSeqs peer k := by
  simp [fireAndForgetSeqs]

/-- Only a delivery adds a fire-and-forget frame: duplicates of those verbs are
not handed up. -/
theorem fireAndForgetSeqs_handedUp {peer : UInt16} {f : DataFrame} (hf : f.SequencedFrom peer)
    (action : ReceiveAction) :
    fireAndForgetSeqs peer (TransportManager.handedUp action f.inbound) =
      if action = .deliver ∧ isFireAndForgetVerb f.ext.verb = true then [f.seq] else [] := by
  cases action with
  | deliver =>
    simp only [TransportManager.handedUp, fireAndForgetSeqs, handedFrames_inbound hf, true_and]
    split_ifs with hverb <;> simp [hverb]
  | duplicate =>
    simp only [TransportManager.handedUp, reduceCtorEq, false_and, if_false]
    split_ifs with hverb
    · have hnot : isFireAndForgetVerb f.ext.verb = false :=
        isFireAndForgetVerb_of_isRequestVerb hverb
      simp [fireAndForgetSeqs, handedFrames_inbound hf, hnot]
    · rfl
  | outOfOrder => rfl
  | beyondWindow => rfl

theorem Ordered.arrive {peer : UInt16} {m : TransportManager} {log : List InboundFrame}
    (h : Ordered peer m log) (f : DataFrame) :
    Ordered peer (arrive m f).1 (log ++ (arrive m f).2) := by
  obtain ⟨⟨session, hs, hw, hbelow⟩, hinc⟩ := h
  by_cases hf : f.SequencedFrom peer
  · obtain ⟨hout, session', hs', hdedup, -⟩ := hs.arrive_sequenced hf
    have hw' : 0 < session'.dedup.windowSize := by
      rw [hdedup, ReliableSession.receiveFrame_windowSize]
      exact hw
    have hmono : session.dedup.nextExpected ≤ session'.dedup.nextExpected := by
      rw [hdedup]
      exact session.nextExpected_le_receiveFrame _
    rw [hout]
    have hseqs := fireAndForgetSeqs_handedUp hf (session.receiveFrame f.seq).2
    split_ifs at hseqs with hdeliver
    · -- the delivered number is the expected one, above all earlier deliveries
      have hnext : f.seq = session.dedup.nextExpected ∧
          session.dedup.nextExpected < session'.dedup.nextExpected := by
        obtain h | h | h | h := session.receiveFrame_cases f.seq
        · refine ⟨h.1, ?_⟩
          rw [hdedup, h.2.2, h.1]
          exact session.dedup.nextExpected_lt_markAndAdvance hw
        all_goals simp [h.2.1] at hdeliver
      refine ⟨⟨session', hs', hw', ?_⟩, ?_⟩
      · intro s hmem
        rw [fireAndForgetSeqs_append, hseqs, List.mem_append, List.mem_singleton] at hmem
        rcases hmem with hold | rfl
        · exact (hbelow s hold).trans_le hmono
        · omega
      · rw [fireAndForgetSeqs_append, hseqs, List.pairwise_append]
        refine ⟨hinc, List.pairwise_singleton _ _, ?_⟩
        intro s hold t ht
        rw [List.mem_singleton.mp ht, hnext.1]
        exact hbelow s hold
    · refine ⟨⟨session', hs', hw', ?_⟩, ?_⟩
      · intro s hmem
        rw [fireAndForgetSeqs_append, hseqs, List.append_nil] at hmem
        exact (hbelow s hmem).trans_le hmono
      · rw [fireAndForgetSeqs_append, hseqs, List.append_nil]
        exact hinc
  · obtain ⟨hs', hout⟩ := hs.arrive_other hf
    have hseqs : fireAndForgetSeqs peer (Transport.arrive m f).2 = [] := by
      rw [fireAndForgetSeqs, hout]
      rfl
    refine ⟨⟨session, hs', hw, ?_⟩, ?_⟩
    · simpa [hseqs] using hbelow
    · simpa [hseqs] using hinc

/-- On a session that stays active, the Write, WriteImm and Send frames handed
up have strictly increasing sequence numbers, whatever arrives. -/
theorem fire_and_forget_strictly_increasing {m : TransportManager} {peer : UInt16}
    {session : ReliableSession} (hs : ActiveSession m peer session)
    (hw : 0 < session.dedup.windowSize) (frames : List DataFrame) :
    (fireAndForgetSeqs peer (Runs.run arrive m frames).2).Pairwise (· < ·) := by
  have hinit : Ordered peer m [] := ⟨⟨session, hs, hw, by simp [fireAndForgetSeqs, handedFrames]⟩,
    List.Pairwise.nil⟩
  have hrun := Runs.run_always (fun m log f (h : Ordered peer m log) => h.arrive f) hinit frames
  simpa using hrun.increasing

/-- A manager of node 1 with a new session for peer 2. -/
def pairedManager : TransportManager :=
  { TransportManager.new 1 ⟨200, 8⟩ with
    sessions := AList.insert ⟨1, 2, 100⟩ (.new 1 2 100 200 8 64) ∅
    peerEpochs := AList.insert 2 100 ∅ }

theorem createSession_pairedManager :
    (TransportManager.new 1 ⟨200, 8⟩).createSession 2 100 64 = .ok pairedManager := rfl

/-- A frame of peer 2 with the given number and verb, naming region 1. -/
def peerFrame (seq : UInt64) (verb : Verb) (payload : List UInt8) : DataFrame where
  header := ⟨magic, version, .data, FrameFlags.ackReq, 2, 1, 0, seq, 0, 0⟩
  ext := ⟨verb, ExtFlags.empty, 1, 0, 0, seq, 0, 0, 1, UbAddr.new 1 1 0 0 0, none⟩
  payload := payload

theorem fire_and_forget_strictly_increasing_reordered :
    (fireAndForgetSeqs 2 (Runs.run arrive pairedManager
      [peerFrame 2 .send [], peerFrame 1 .write [], peerFrame 1 .write [],
        peerFrame 3 .write []]).2).Pairwise (· < ·) :=
  fire_and_forget_strictly_increasing (createSession_active createSession_pairedManager)
    (by decide) _

example :
    fireAndForgetSeqs 2 (Runs.run arrive pairedManager
      [peerFrame 2 .send [], peerFrame 1 .write [], peerFrame 1 .write [],
        peerFrame 3 .write []]).2 = [1, 3] := by
  decide

/-! ## Cumulative acknowledgement and delivery -/

/-- The members of a list in the order of their first occurrence. -/
def firstTimes (l : List ℕ) : List ℕ := l.reverse.dedup.reverse

@[simp] theorem mem_firstTimes {l : List ℕ} {s : ℕ} : s ∈ firstTimes l ↔ s ∈ l := by
  simp [firstTimes]

theorem firstTimes_concat_of_mem {l : List ℕ} {s : ℕ} (h : s ∈ l) :
    firstTimes (l ++ [s]) = firstTimes l := by
  simp [firstTimes, h]

theorem firstTimes_concat_of_notMem {l : List ℕ} {s : ℕ} (h : s ∉ l) :
    firstTimes (l ++ [s]) = firstTimes l ++ [s] := by
  simp [firstTimes, h]

/-- Every number that an acknowledgement would cover was handed up, and the
numbers handed up for the first time are `1, 2, 3, …` without a gap. -/
structure NoAckedLoss (peer : UInt16) (m : TransportManager) (log : List InboundFrame) :
    Prop where
  acked : ∀ session, m.sessions.lookup (m.currentKey peer) = some session →
    ∀ hasGap s, 1 ≤ s → s ≤ (session.buildAckPayload hasGap).2.ackSeq.toNat →
      s ∈ handedSeqs peer log
  gapFree : ∃ n, firstTimes (handedSeqs peer log) = List.range' 1 n

/-- The peer's next frame is not ahead of the window's expected number, unless
it lies beyond the window and is discarded. -/
def NotAhead (peer : UInt16) (m : TransportManager) (_ : List InboundFrame) (f : DataFrame) :
    Prop :=
  f.SequencedFrom peer → ∀ session, m.sessions.lookup (m.currentKey peer) = some session →
    session.dedup.check f.seq ≠ .outOfOrder

/-- The window has no gap and all it has seen was handed up in order. -/
structure Contiguous (peer : UInt16) (m : TransportManager) (log : List InboundFrame)
    (session : ReliableSession) : Prop where
  current : ActiveSession m peer session
  windowSize_pos : 0 < session.dedup.windowSize
  refines : session.dedup.Refines 1 (Set.Ico 1 session.dedup.nextExpected)
  handed : firstTimes (handedSeqs peer log) = List.range' 1 (session.dedup.nextExpected - 1)

namespace Contiguous

variable {peer : UInt16} {m : TransportManager} {log : List InboundFrame}
  {session : ReliableSession}

theorem mem_handedSeqs (h : Contiguous peer m log session) (s : ℕ) :
    s ∈ handedSeqs peer log ↔ 1 ≤ s ∧ s < session.dedup.nextExpected := by
  have hfirst := h.refines.first_le
  rw [← mem_firstTimes, h.handed, List.mem_range'_1]
  omega

theorem noAckedLoss (h : Contiguous peer m log session) : NoAckedLoss peer m log := by
  refine ⟨?_, _, h.handed⟩
  intro session' hlookup hasGap s hpos hle
  obtain rfl : session = session' := Option.some.inj (h.current.lookup.symm.trans hlookup)
  have hlt := session.ackSeq_lt_nextExpected hasGap h.refines.first_le
  exact (h.mem_handedSeqs s).mpr ⟨hpos, by omega⟩

theorem arrive (h : Contiguous peer m log session) {f : DataFrame}
    (hahead : NotAhead peer m log f) :
    ∃ session', Contiguous peer (arrive m f).1 (log ++ (arrive m f).2) session' := by
  by_cases hf : f.SequencedFrom peer
  · obtain ⟨hout, session', hs', hdedup, -⟩ := h.current.arrive_sequenced hf
    refine ⟨session', ?_⟩
    have hw' : 0 < session'.dedup.windowSize := by
      rw [hdedup, ReliableSession.receiveFrame_windowSize]
      exact h.windowSize_pos
    rw [hout]
    obtain ⟨hseq, haction, hmark⟩ | ⟨hseen, haction, hmark⟩ | ⟨hgap, -, -⟩ |
      ⟨-, haction, hmark⟩ := session.receiveFrame_cases f.seq
    · -- in order: handed up and marked
      rw [hmark, hseq] at hdedup
      obtain ⟨hnext, hrefines⟩ := h.refines.markAndAdvance_next h.windowSize_pos
      refine ⟨hs', hw', by rw [hdedup, hnext]; exact hrefines, ?_⟩
      have hnew : f.seq ∉ handedSeqs peer log := by
        rw [h.mem_handedSeqs]
        omega
      have hfirst := h.refines.first_le
      rw [haction, TransportManager.handedUp, handedSeqs_append, handedSeqs_inbound hf,
        firstTimes_concat_of_notMem hnew, h.handed, hdedup, hnext, hseq]
      obtain ⟨k, hk⟩ := Nat.exists_eq_add_of_le' hfirst
      rw [hk, Nat.add_sub_cancel, Nat.add_sub_cancel, List.range'_1_concat, Nat.add_comm 1 k]
    · -- a duplicate: its number was handed up before
      rw [hmark] at hdedup
      have hold : f.seq ∈ handedSeqs peer log := by
        have hcases := ((h.refines.check_cases h.windowSize_pos f.seq).1.mp hseen)
        rw [Set.mem_Ico] at hcases
        have hpos : f.seq ≠ 0 := hf.2
        rw [h.mem_handedSeqs]
        omega
      refine ⟨hs', hw', by rw [hdedup]; exact h.refines, ?_⟩
      rw [haction, TransportManager.handedUp, hdedup, handedSeqs_append]
      split_ifs
      · rw [handedSeqs_inbound hf, firstTimes_concat_of_mem hold, h.handed]
      · simpa [handedSeqs, handedFrames] using h.handed
    · exact absurd hgap (hahead hf session h.current.lookup)
    · -- beyond the window: discarded
      rw [hmark] at hdedup
      refine ⟨hs', hw', by rw [hdedup]; exact h.refines, ?_⟩
      rw [haction, TransportManager.handedUp, hdedup, List.append_nil, h.handed]
  · obtain ⟨hs', hout⟩ := h.current.arrive_other hf
    refine ⟨session, hs', h.windowSize_pos, h.refines, ?_⟩
    rw [handedSeqs_append, handedSeqs, handedSeqs, hout, List.map_nil, List.append_nil]
    exact h.handed

end Contiguous

theorem createSession_contiguous {m m' : TransportManager} {peer : UInt16}
    {epoch credits : UInt32} (h : m.createSession peer epoch credits = .ok m') :
    ∃ session, Contiguous peer m' [] session := by
  have hrefines : (DedupWindow.new 1).Refines 1 (Set.Ico 1 1) := by
    rw [Set.Ico_self]
    exact DedupWindow.refines_withWindowSize 1 1024 le_rfl
  exact ⟨_, createSession_active h, Nat.succ_pos 1023, hrefines, rfl⟩

/-- From a new session on, as long as no frame arrives ahead of its turn inside
the window, no acknowledged frame is lost and first deliveries have no gap. -/
theorem no_acked_loss_without_reordering {m m' : TransportManager} {peer : UInt16}
    {epoch credits : UInt32} (hnew : m.createSession peer epoch credits = .ok m')
    {frames : List DataFrame} (hframes : Runs.Meets arrive (NotAhead peer) m' [] frames) :
    (∃ session, ActiveSession (Runs.run arrive m' frames).1 peer session) ∧
    NoAckedLoss peer (Runs.run arrive m' frames).1 (Runs.run arrive m' frames).2 := by
  have hrun := Runs.run_invariant
    (fun m log f (h : ∃ session, Contiguous peer m log session) hahead => h.elim fun _ hc =>
      hc.arrive hahead) (createSession_contiguous hnew) hframes
  obtain ⟨session, hc⟩ := hrun
  exact ⟨⟨session, hc.current⟩, by simpa using hc.noAckedLoss⟩

theorem notAhead_of_check {peer : UInt16} {m : TransportManager} {log : List InboundFrame}
    {f : DataFrame} {r : DedupResult}
    (h : (m.sessions.lookup (m.currentKey peer)).map (fun s => s.dedup.check f.seq) = some r)
    (hr : r ≠ .outOfOrder) : NotAhead peer m log f := by
  intro _ session hlookup
  rw [hlookup, Option.map_some, Option.some.injEq] at h
  rw [h]
  exact hr

theorem no_acked_loss_with_duplicates :
    NoAckedLoss 2
      (Runs.run arrive pairedManager
        [peerFrame 1 .readReq [], peerFrame 1 .readReq [], peerFrame 2 .write [7]]).1
      (Runs.run arrive pairedManager
        [peerFrame 1 .readReq [], peerFrame 1 .readReq [], peerFrame 2 .write [7]]).2 := by
  have hframes : Runs.Meets arrive (NotAhead 2) pairedManager []
      [peerFrame 1 .readReq [], peerFrame 1 .readReq [], peerFrame 2 .write [7]] := by
    refine ⟨notAhead_of_check (r := .inOrder) (by decide) (by decide), ?_, ?_, trivial⟩
    · exact notAhead_of_check (r := .alreadySeen) (by decide) (by decide)
    · exact notAhead_of_check (r := .inOrder) (by decide) (by decide)
  exact (no_acked_loss_without_reordering createSession_pairedManager hframes).2

/-- Frames 2 and 1 arrive in this order: number 2 is marked as received, never
handed up, and covered by the next acknowledgement. -/
theorem reordered_frame_acked_and_lost :
    let frames := [peerFrame 2 .write [7], peerFrame 1 .write [8]]
    (∀ f ∈ frames, f.SequencedFrom 2) ∧
    ¬ NoAckedLoss 2 (Runs.run arrive pairedManager frames).1
      (Runs.run arrive pairedManager frames).2 := by
  intro frames
  refine ⟨by decide, fun h => ?_⟩
  have hseqs : handedSeqs 2 (Runs.run arrive pairedManager frames).2 = [1] := by decide
  have hack : ((Runs.run arrive pairedManager frames).1.sessions.lookup
      ((Runs.run arrive pairedManager frames).1.currentKey 2)).map
        (fun session => (session.buildAckPayload false).2.ackSeq.toNat) = some 2 := by decide
  obtain ⟨session, hlookup, hsession⟩ := Option.map_eq_some_iff.mp hack
  have hmem := h.acked session hlookup false 2 (by decide) (le_of_eq hsession.symm)
  rw [hseqs] at hmem
  exact absurd hmem (by decide)

end UniBus.Transport
