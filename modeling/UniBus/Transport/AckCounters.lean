import UniBus.Foundations.Checked
import UniBus.Transport.Records
import UniBus.Transport.Sending

/-!
# The acknowledgement counters of a session

What becomes of the credits that a session owes its peer. An acknowledgement takes all of
them; but a frame beyond the window counts without being acknowledged, the application's
credits never make a CREDIT frame go out, and a full channel loses what the
acknowledgement carries.
-/
namespace UniBus.Transport

open Wire

/-- A call that counts for the session of a peer, or a change of the channel to the peer. -/
inductive CounterCall
  | handleDataFrame (f : DataFrame)
  | grantCredits (count : UInt32)
  /-- The writer has taken frames, or the peer has connected again or is gone. -/
  | channel (sender : Option Sender)

namespace CounterCall

/-- Data frames come from the peer. -/
def From (peer : UInt16) : CounterCall → Prop
  | handleDataFrame f => f.header.srcNode = peer
  | _ => True

/-- The credits that a call adds to those the session owes. A frame without a number goes
past the session. -/
def added : CounterCall → Option ℕ
  | handleDataFrame f => some (if f.seq = 0 then 0 else 1)
  | grantCredits count => some count.toNat
  | channel _ => none

end CounterCall

/-- The credits in an ACK or CREDIT frame. -/
def creditsIn (frame : List UInt8) : ℕ :=
  match decodeFrame frame with
  | .error _ => 0
  | .ok (header, _, payload) =>
    match header.frameType with
    | .ack =>
      match decodeAckPayload payload (header.flags.contains FrameFlags.hasSack) with
      | .error _ => 0
      | .ok ack => ack.creditGrant.toNat
    | .credit =>
      match decodeCreditPayload payload with
      | .error _ => 0
      | .ok credit => credit.credits.toNat
    | _ => 0

theorem creditsIn_buildAckFrame (localNode remoteNode : UInt16) (ack : AckPayload) :
    creditsIn (buildAckFrame localNode remoteNode ack) = ack.creditGrant.toNat := by
  obtain ⟨header, hdecode, htype, -, hflag⟩ := decodeFrame_buildAckFrame localNode remoteNode ack
  simp only [creditsIn, hdecode, htype, hflag, decodeAckPayload_encode]

namespace TransportManager

variable (m : TransportManager) (peer : UInt16)

def countCall : CounterCall → TransportManager × List InboundFrame
  | .handleDataFrame f => m.handleDataFrame f.header f.ext f.payload
  | .grantCredits count => (m.grantCredits peer count, [])
  | .channel (some sender) => (m.registerPeerSender peer sender, [])
  | .channel none => (m.removePeerSender peer, [])

def channelTo : List (List UInt8) := (m.peerSenders.lookup peer).elim [] Sender.queue

/-- The credits in the frames that `m'` has emitted to the peer since `m`. -/
def creditsEmitted (m' : TransportManager) : ℕ :=
  (((m'.channelTo peer).drop (m.channelTo peer).length).map creditsIn).sum

theorem channelTo_sendFrameToPeer (data : List UInt8) :
    (m.Accepts peer ∧ (m.sendFrameToPeer peer data).channelTo peer = m.channelTo peer ++ [data]) ∨
      (¬ m.Accepts peer ∧ (m.sendFrameToPeer peer data).channelTo peer = m.channelTo peer) := by
  unfold sendFrameToPeer
  cases hsender : m.peerSenders.lookup peer with
  | none =>
    refine Or.inr ⟨?_, rfl⟩
    rintro ⟨sender, hsome, -⟩
    rw [hsender] at hsome
    cases hsome
  | some sender =>
    rw [accepts_iff hsender]
    cases hsent : sender.trySend data with
    | none =>
      refine Or.inr ⟨trySend_eq_none_iff.mp hsent, ?_⟩
      simp only [hsent]
    | some sent =>
      have hroom : sender.closed = false ∧ sender.queue.length < sender.capacity := by
        by_contra hno
        rw [trySend_eq_none_iff.mpr hno] at hsent
        cases hsent
      have hqueue : sent.queue = sender.queue ++ [data] := by
        unfold Sender.trySend at hsent
        split_ifs at hsent
        cases hsent
        rfl
      refine Or.inl ⟨hroom, ?_⟩
      simp only [hsent, channelTo, AList.lookup_insert, hsender, Option.elim_some, hqueue]

variable {m peer}

theorem creditsEmitted_of_eq {m' : TransportManager} (h : m'.channelTo peer = m.channelTo peer) :
    m.creditsEmitted peer m' = 0 := by
  rw [creditsEmitted, h, List.drop_length]
  rfl

theorem creditsEmitted_of_append {m' : TransportManager} {frame : List UInt8}
    (h : m'.channelTo peer = m.channelTo peer ++ [frame]) :
    m.creditsEmitted peer m' = creditsIn frame := by
  rw [creditsEmitted, h, List.drop_left]
  exact Nat.add_zero _

end TransportManager

/-! ## The counters of one session -/

namespace ReliableSession

variable (s : ReliableSession)

/-- A received frame makes an acknowledgement due. -/
def AckDue (seq : ℕ) : Prop :=
  (s.receiveFrame seq).2 ≠ .beyondWindow ∧
    ((s.receiveFrame seq).2 = .duplicate ∨ (s.receiveFrame seq).2 = .outOfOrder ∨
      (s.receiveFrame seq).1.shouldSendAck = true)

structure Low : Prop where
  credits : s.creditsToGrant.toNat < 8
  frames : s.framesSinceLastAck.toNat < 8

theorem low_iff_shouldSendAck : s.Low ↔ s.shouldSendAck = false := by
  have hframes : s.framesSinceLastAck ≥ 8 ↔ 8 ≤ s.framesSinceLastAck.toNat := Iff.rfl
  have hcredits : s.creditsToGrant ≥ 8 ↔ 8 ≤ s.creditsToGrant.toNat := Iff.rfl
  rw [shouldSendAck, Bool.or_eq_false_iff, decide_eq_false_iff_not, decide_eq_false_iff_not,
    hframes, hcredits, Nat.not_le, Nat.not_le]
  exact ⟨fun h => ⟨h.frames, h.credits⟩, fun h => ⟨h.2, h.1⟩⟩

/-- One more frame brings a counter to its threshold. -/
def AtThreshold : Prop := 8 ≤ s.creditsToGrant.toNat + 1 ∨ 8 ≤ s.framesSinceLastAck.toNat + 1

theorem Low.toNat_receiveFrame {s : ReliableSession} (h : s.Low) (seq : ℕ) :
    (s.receiveFrame seq).1.creditsToGrant.toNat = s.creditsToGrant.toNat + 1 := by
  have hcredits := h.credits
  rw [receiveFrame_creditsToGrant]
  exact Checked.toNat_addU32_one (by omega)

theorem Low.shouldSendAck_receiveFrame {s : ReliableSession} (h : s.Low) (seq : ℕ) :
    (s.receiveFrame seq).1.shouldSendAck = false ↔ ¬s.AtThreshold := by
  have hlow := h.frames
  have hframes : (s.framesSinceLastAck + 1).toNat = s.framesSinceLastAck.toNat + 1 :=
    Checked.toNat_addU32_one (by omega)
  have hafter : (s.receiveFrame seq).1.Low ↔
      s.creditsToGrant.toNat + 1 < 8 ∧ s.framesSinceLastAck.toNat + 1 < 8 := by
    rw [← h.toNat_receiveFrame seq, ← hframes, ← s.receiveFrame_framesSinceLastAck seq]
    exact ⟨fun hlow => ⟨hlow.credits, hlow.frames⟩, fun hlow => ⟨hlow.1, hlow.2⟩⟩
  rw [← low_iff_shouldSendAck, hafter, AtThreshold]
  omega

end ReliableSession

/-! ## One call -/

/-- The current session of the peer, stored under its own key, with low counters. -/
structure Counting (m : TransportManager) (peer : UInt16) (s : ReliableSession) : Prop
    extends LiveSession m peer s where
  key : s.key.remoteNode = peer
  low : s.Low

theorem createSession_counting {m m' : TransportManager} {peer : UInt16} {epoch credits : UInt32}
    (h : m.createSession peer epoch credits = .ok m') :
    Counting m' peer
      (.new m.localNodeId peer epoch m.config.rtoMs m.config.maxRetries credits) := by
  have hlow : (0 : UInt32).toNat < 8 := by decide
  exact ⟨createSession_live h, rfl, hlow, hlow⟩

/-- The call leaves the counters low, and every credit that the session owed or has been
given is still owed or was emitted. -/
def Drains (peer : UInt16) (m : TransportManager) (c : CounterCall) : Prop :=
  ∃ s s', LiveSession m peer s ∧ LiveSession (m.countCall peer c).1 peer s' ∧ s'.Low ∧
    ∀ n, c.added = some n →
      s.creditsToGrant.toNat + n =
        s'.creditsToGrant.toNat + m.creditsEmitted peer (m.countCall peer c).1

/-- A frame that is acknowledged finds room in the channel, one beyond the window does not
bring a counter to its threshold, and neither do the credits of the application. -/
def Drainable (peer : UInt16) (m : TransportManager) : CounterCall → Prop
  | .handleDataFrame f => f.seq ≠ 0 → ∀ s, LiveSession m peer s →
    match s.dedup.check f.seq with
    | .inOrder => s.AtThreshold → m.Accepts peer
    | .alreadySeen | .outOfOrder => m.Accepts peer
    | .beyondWindow => ¬s.AtThreshold
  | .grantCredits count => ∀ s, LiveSession m peer s →
    s.creditsToGrant.toNat + count.toNat < 8
  | .channel _ => True

section
variable {m : TransportManager} {peer : UInt16} {s : ReliableSession}
  {f : DataFrame} {s' : ReliableSession} {c : CounterCall}

section
variable (h : LiveSession m peer s)
include h

theorem LiveSession.unique (h' : LiveSession m peer s') :
    s' = s := Option.some.inj (h'.lookup.symm.trans h.lookup)

theorem drains_iff (h' : LiveSession (m.countCall peer c).1 peer s') :
    Drains peer m c ↔ s'.Low ∧ ∀ n, c.added = some n →
      s.creditsToGrant.toNat + n =
        s'.creditsToGrant.toNat + m.creditsEmitted peer (m.countCall peer c).1 := by
  constructor
  · rintro ⟨s₁, s₁', h₁, h₁', hdrained⟩
    rwa [h.unique h₁, h'.unique h₁'] at hdrained
  · intro hdrained
    exact ⟨s, s', h, h', hdrained⟩

theorem LiveSession.setSession (hstate : s'.state = s.state) :
    LiveSession (m.setSession (m.currentKey peer) s') peer s' :=
  ⟨⟨AList.lookup_insert _, hstate.trans h.active⟩, h.known⟩

theorem LiveSession.sendFrameToPeer (node : UInt16) (data : List UInt8) :
    LiveSession (m.sendFrameToPeer node data) peer s := by
  constructor
  · constructor
    · rw [TransportManager.sendFrameToPeer_sessions]
      have hkey : (m.sendFrameToPeer node data).currentKey peer = m.currentKey peer := by
        rw [TransportManager.currentKey, TransportManager.keyFor,
          TransportManager.sendFrameToPeer_peerEpochs,
          TransportManager.sendFrameToPeer_localNodeId]
        rfl
      rw [hkey]
      exact h.lookup
    · exact h.active
  · rw [TransportManager.sendFrameToPeer_peerEpochs]
    exact h.known

theorem LiveSession.countCall_frame (hfrom : f.header.srcNode = peer) (hseq : f.seq ≠ 0) :
    (m.countCall peer (.handleDataFrame f)).1 =
      m.acknowledge (m.currentKey peer) peer (s.receiveFrame f.seq).1
        (s.receiveFrame f.seq).2 := by
  subst hfrom
  have hzero : f.header.streamSeq.toNat ≠ 0 := hseq
  simp only [TransportManager.countCall, TransportManager.handleDataFrame, if_neg hzero, h.lookup]
  rw [if_neg (not_ne_iff.mpr h.active)]
  rfl

end

theorem Counting.frame_of_not_ackDue (h : Counting m peer s) (hfrom : f.header.srcNode = peer)
    (hseq : f.seq ≠ 0) (hdue : ¬ s.AckDue f.seq) :
    LiveSession (m.countCall peer (.handleDataFrame f)).1 peer (s.receiveFrame f.seq).1 ∧
      m.creditsEmitted peer (m.countCall peer (.handleDataFrame f)).1 = 0 := by
  have hstore : (m.countCall peer (.handleDataFrame f)).1 =
      m.setSession (m.currentKey peer) (s.receiveFrame f.seq).1 := by
    rw [h.countCall_frame hfrom hseq, TransportManager.acknowledge]
    split_ifs with hbeyond hack
    · rfl
    · exact absurd ⟨hbeyond, hack⟩ hdue
    · rfl
  rw [hstore]
  exact ⟨h.setSession (s.receiveFrame_state f.seq), TransportManager.creditsEmitted_of_eq rfl⟩

/-- An acknowledgement takes all credits, and they are lost if the channel is full. -/
theorem Counting.frame_of_ackDue (h : Counting m peer s) (hfrom : f.header.srcNode = peer)
    (hseq : f.seq ≠ 0) (hdue : s.AckDue f.seq) :
    (∃ s', LiveSession (m.countCall peer (.handleDataFrame f)).1 peer s' ∧
        s'.key.remoteNode = peer ∧ s'.creditsToGrant = 0 ∧ s'.framesSinceLastAck = 0) ∧
      ((m.Accepts peer ∧ m.creditsEmitted peer (m.countCall peer (.handleDataFrame f)).1 =
          s.creditsToGrant.toNat + 1) ∨
        (¬ m.Accepts peer ∧
          m.creditsEmitted peer (m.countCall peer (.handleDataFrame f)).1 = 0)) := by
  let acked := (s.receiveFrame f.seq).1.buildAckPayload
    ((s.receiveFrame f.seq).2 == .outOfOrder)
  let stored := m.setSession (m.currentKey peer) acked.1
  let frame := buildAckFrame m.localNodeId peer acked.2
  have hkey : acked.1.key.remoteNode = peer := by
    change (s.receiveFrame f.seq).1.key.remoteNode = peer
    rw [s.receiveFrame_key]
    exact h.key
  have hsent : (m.countCall peer (.handleDataFrame f)).1 = stored.sendFrameToPeer peer frame := by
    rw [h.countCall_frame hfrom hseq, TransportManager.acknowledge, if_neg hdue.1, if_pos hdue.2]
    change stored.sendFrameToPeer acked.1.key.remoteNode frame = _
    rw [hkey]
  have hlive : LiveSession stored peer acked.1 := h.setSession (s.receiveFrame_state f.seq)
  rw [hsent]
  constructor
  · exact ⟨acked.1, hlive.sendFrameToPeer _ _, hkey, rfl, rfl⟩
  · -- storing the session does not touch the channel
    rcases stored.channelTo_sendFrameToPeer peer frame with
      ⟨haccepts, hchannel⟩ | ⟨hrefuses, hchannel⟩
    · have hemitted : m.creditsEmitted peer (stored.sendFrameToPeer peer frame) =
          creditsIn frame := TransportManager.creditsEmitted_of_append hchannel
      refine Or.inl ⟨haccepts, ?_⟩
      rw [hemitted, creditsIn_buildAckFrame]
      exact h.low.toNat_receiveFrame f.seq
    · exact Or.inr ⟨hrefuses, TransportManager.creditsEmitted_of_eq hchannel⟩

theorem Counting.frame_zero (hseq : f.seq = 0) :
    (m.countCall peer (.handleDataFrame f)).1 = m := by
  have hzero : f.header.streamSeq.toNat = 0 := hseq
  simp only [TransportManager.countCall, TransportManager.handleDataFrame, if_pos hzero]

theorem LiveSession.countCall_grantCredits (h : LiveSession m peer s) (count : UInt32) :
    (m.countCall peer (.grantCredits count)).1 =
      m.setSession (m.currentKey peer)
        { s with creditsToGrant := s.creditsToGrant + count } := by
  simp only [TransportManager.countCall, TransportManager.grantCredits, h.findSession]
  exact if_neg
    (ReliableSession.not_creditFrameDue { s with creditsToGrant := s.creditsToGrant + count })

theorem LiveSession.countCall_channel (h : LiveSession m peer s) (sender : Option Sender) :
    LiveSession (m.countCall peer (.channel sender)).1 peer s := by
  cases sender <;> exact ⟨⟨h.lookup, h.active⟩, h.known⟩

theorem Counting.countCall (h : Counting m peer s) (hfrom : c.From peer) :
    ∃ s', LiveSession (m.countCall peer c).1 peer s' ∧ s'.key.remoteNode = peer := by
  cases c with
  | handleDataFrame f =>
    by_cases hseq : f.seq = 0
    · rw [Counting.frame_zero hseq]
      exact ⟨s, h.toLiveSession, h.key⟩
    · by_cases hdue : s.AckDue f.seq
      · obtain ⟨⟨s', hlive, hkey, -⟩, -⟩ := h.frame_of_ackDue hfrom hseq hdue
        exact ⟨s', hlive, hkey⟩
      · refine ⟨_, (h.frame_of_not_ackDue hfrom hseq hdue).1, ?_⟩
        rw [s.receiveFrame_key]
        exact h.key
  | grantCredits count =>
    rw [h.countCall_grantCredits]
    exact ⟨_, h.setSession rfl, h.key⟩
  | channel sender => exact ⟨s, h.countCall_channel sender, h.key⟩

/-! ## Which calls drain the counters -/

/-- The condition on the window and the counters, in terms of the answer to the frame. -/
theorem Counting.drainable_frame_iff (h : Counting m peer s) (hseq : f.seq ≠ 0) :
    Drainable peer m (.handleDataFrame f) ↔
      (s.AckDue f.seq → m.Accepts peer) ∧ ((s.receiveFrame f.seq).2 = .beyondWindow →
        (s.receiveFrame f.seq).1.shouldSendAck = false) := by
  have hdrainable : Drainable peer m (.handleDataFrame f) ↔
      match s.dedup.check f.seq with
      | .inOrder => s.AtThreshold → m.Accepts peer
      | .alreadySeen | .outOfOrder => m.Accepts peer
      | .beyondWindow => ¬s.AtThreshold := by
    constructor
    · intro hdrainable
      exact hdrainable hseq s h.toLiveSession
    · intro hcond _ s₁ hlive
      rwa [h.unique hlive]
  have hthreshold := h.low.shouldSendAck_receiveFrame f.seq
  have hdue : (s.receiveFrame f.seq).1.shouldSendAck = true ↔ s.AtThreshold := by
    rw [← not_iff_not, Bool.not_eq_true]
    exact hthreshold
  rw [hdrainable, ReliableSession.AckDue, hthreshold, hdue]
  cases hcheck : s.dedup.check f.seq <;> simp [ReliableSession.receiveFrame, hcheck]

theorem Counting.frame_drains_iff (h : Counting m peer s) (hfrom : f.header.srcNode = peer) :
    Drains peer m (.handleDataFrame f) ↔ Drainable peer m (.handleDataFrame f) := by
  by_cases hseq : f.seq = 0
  · have hadded : (CounterCall.handleDataFrame f).added = some 0 := congrArg some (if_pos hseq)
    have hsame : (m.countCall peer (.handleDataFrame f)).1 = m := Counting.frame_zero hseq
    refine iff_of_true ?_ fun hne => absurd hseq hne
    rw [drains_iff h.toLiveSession (hsame.symm ▸ h.toLiveSession), hsame,
      TransportManager.creditsEmitted_of_eq rfl]
    refine ⟨h.low, fun n hn => ?_⟩
    cases hadded.symm.trans hn
    rfl
  · have hadded : (CounterCall.handleDataFrame f).added = some 1 := congrArg some (if_neg hseq)
    rw [h.drainable_frame_iff hseq]
    by_cases hdue : s.AckDue f.seq
    · obtain ⟨⟨s', hlive, -, hcredits, hframes⟩, hemitted⟩ := h.frame_of_ackDue hfrom hseq hdue
      have hzero : (0 : UInt32).toNat = 0 := rfl
      rw [drains_iff h.toLiveSession hlive, hcredits, hzero]
      constructor
      · rintro ⟨-, hconserved⟩
        have hone := hconserved 1 hadded
        rcases hemitted with ⟨haccepts, -⟩ | ⟨-, hlost⟩
        · exact ⟨fun _ => haccepts, fun hbeyond => absurd hbeyond hdue.1⟩
        · omega
      · rintro ⟨haccepts, -⟩
        obtain ⟨-, hgranted⟩ := hemitted.resolve_right fun hno => hno.1 (haccepts hdue)
        refine ⟨⟨by rw [hcredits, hzero]; omega, by rw [hframes, hzero]; omega⟩, ?_⟩
        intro n hn
        cases hadded.symm.trans hn
        omega
    · obtain ⟨hlive, hemitted⟩ := h.frame_of_not_ackDue hfrom hseq hdue
      rw [drains_iff h.toLiveSession hlive, hemitted, ReliableSession.low_iff_shouldSendAck]
      constructor
      · rintro ⟨hlow, -⟩
        exact ⟨fun hnow => absurd hnow hdue, fun _ => hlow⟩
      · rintro ⟨-, hbeyond⟩
        constructor
        · by_cases hfar : (s.receiveFrame f.seq).2 = .beyondWindow
          · exact hbeyond hfar
          · by_contra hmany
            exact hdue ⟨hfar, Or.inr (Or.inr (Bool.not_eq_false _ ▸ hmany))⟩
        · intro n hn
          cases hadded.symm.trans hn
          exact (h.low.toNat_receiveFrame f.seq).symm

theorem Counting.grantCredits_drains_iff (h : Counting m peer s) (count : UInt32) :
    Drains peer m (.grantCredits count) ↔ Drainable peer m (.grantCredits count) := by
  have hcredits := h.low.credits
  have hcond : Drainable peer m (.grantCredits count) ↔
      s.creditsToGrant.toNat + count.toNat < 8 := by
    constructor
    · intro hdrainable
      exact hdrainable s h.toLiveSession
    · intro hcond s₁ hlive
      rwa [h.unique hlive]
  have hlive : LiveSession (m.countCall peer (.grantCredits count)).1 peer
      { s with creditsToGrant := s.creditsToGrant + count } := by
    rw [h.countCall_grantCredits]
    exact h.setSession rfl
  have hemitted : m.creditsEmitted peer (m.countCall peer (.grantCredits count)).1 = 0 := by
    rw [h.countCall_grantCredits]
    exact TransportManager.creditsEmitted_of_eq rfl
  have hsum : (s.creditsToGrant + count).toNat =
      (s.creditsToGrant.toNat + count.toNat) % 2 ^ 32 := UInt32.toNat_add _ _
  rw [hcond, drains_iff h.toLiveSession hlive, hemitted]
  constructor
  · rintro ⟨hlow, hconserved⟩
    have hbelow : (s.creditsToGrant + count).toNat < 8 := hlow.credits
    have htotal : s.creditsToGrant.toNat + count.toNat = (s.creditsToGrant + count).toNat + 0 :=
      hconserved _ rfl
    omega
  · intro hbelow
    have htotal : (s.creditsToGrant + count).toNat = s.creditsToGrant.toNat + count.toNat := by
      omega
    refine ⟨⟨htotal.trans_lt hbelow, h.low.frames⟩, ?_⟩
    rintro n ⟨⟩
    exact htotal.symm

/-- With low counters, the calls that drain are the ones the condition names. -/
theorem Counting.drains_iff_drainable (h : Counting m peer s) (hfrom : c.From peer) :
    Drains peer m c ↔ Drainable peer m c := by
  cases c with
  | handleDataFrame f => exact h.frame_drains_iff hfrom
  | grantCredits count => exact h.grantCredits_drains_iff count
  | channel sender =>
    refine iff_of_true ?_ trivial
    rw [drains_iff h.toLiveSession (h.countCall_channel sender)]
    refine ⟨h.low, ?_⟩
    rintro n ⟨⟩

end

/-- Over any run of calls for an active session, all of them drain the counters exactly if
each meets the condition. -/
theorem ack_counters_drained_iff {m : TransportManager} {peer : UInt16} {s : ReliableSession}
    (h : Counting m peer s) {calls : List CounterCall} (hfrom : ∀ c ∈ calls, c.From peer) :
    Runs.Meets (TransportManager.countCall · peer) (fun m _ c => Drains peer m c) m [] calls ↔
      Runs.Meets (TransportManager.countCall · peer) (fun m _ c => Drainable peer m c) m []
        calls := by
  have hfroms : Runs.Meets (TransportManager.countCall · peer)
      (fun _ _ (c : CounterCall) => c.From peer) m [] calls := Runs.meets_of_forall_mem hfrom
  have hiff : Runs.Meets (TransportManager.countCall · peer)
      (fun m _ c => c.From peer ∧ Drains peer m c) m [] calls ↔
      Runs.Meets (TransportManager.countCall · peer)
      (fun m _ c => c.From peer ∧ Drainable peer m c) m [] calls := by
    apply Runs.meets_iff (I := fun m _ => ∃ s, Counting m peer s)
    · rintro m _ c ⟨s, hs⟩
      exact and_congr_right fun hc => hs.drains_iff_drainable hc
    · rintro m _ c ⟨s, hs⟩ ⟨hc, hdrains⟩
      obtain ⟨s', hlive, hkey⟩ := hs.countCall hc
      exact ⟨s', hlive, hkey, ((drains_iff hs.toLiveSession hlive).mp hdrains).1⟩
    · exact ⟨s, h⟩
  constructor
  · intro hdrains
    exact (hiff.mp (hfroms.and hdrains)).mono fun _ _ _ hc => hc.2
  · intro hdrainable
    exact (hiff.mpr (hfroms.and hdrainable)).mono fun _ _ _ hc => hc.2

def owedTo (m : TransportManager) (peer : UInt16) : Option UInt32 :=
  (m.sessions.lookup (m.currentKey peer)).map ReliableSession.creditsToGrant

theorem LiveSession.owedTo {m : TransportManager} {peer : UInt16} {s : ReliableSession}
    (h : LiveSession m peer s) : owedTo m peer = some s.creditsToGrant :=
  congrArg (Option.map _) h.lookup

theorem ack_counters_drained_in_order :
    Runs.Meets (TransportManager.countCall · 2) (fun m _ c => Drains 2 m c) pairedManager []
      [.channel (some ⟨[], 4, false⟩), .handleDataFrame (peerFrame 1 .write []),
        .grantCredits 3] := by
  have hcounting := createSession_counting createSession_pairedManager
  apply (ack_counters_drained_iff hcounting (by simp [CounterCall.From, peerFrame])).mpr
  refine ⟨trivial, ?_, ?_, trivial⟩
  · intro _ s hlive
    rw [(hcounting.countCall_channel _).unique hlive]
    exact fun _ => ⟨⟨[], 4, false⟩, rfl, rfl, by decide⟩
  · intro s hlive
    have howed : s.creditsToGrant = 1 := Option.some.inj (hlive.owedTo.symm.trans (by decide))
    rw [howed]
    decide

theorem Drains.owedTo_ne {m : TransportManager} {peer : UInt16} {c : CounterCall}
    (h : Drains peer m c) : owedTo (m.countCall peer c).1 peer ≠ some 8 := by
  obtain ⟨_, s, -, hlive, hlow, -⟩ := h
  intro howed
  have hcredits := hlow.credits
  rw [Option.some.inj (hlive.owedTo.symm.trans howed)] at hcredits
  exact absurd hcredits (by decide)

/-- Eight credits of the application, or eight frames beyond the window, stay with the
session although the channel is open: no ACK and no CREDIT frame goes out. -/
theorem credits_stay_owed :
    let m := pairedManager.registerPeerSender 2 ⟨[], 64, false⟩
    let far : CounterCall := .handleDataFrame (peerFrame 2000 .write [])
    let granted := (m.countCall 2 (.grantCredits 8)).1
    let flooded := (Runs.run (TransportManager.countCall · 2) m (List.replicate 7 far)).1
    (granted.channelTo 2 = [] ∧ owedTo granted 2 = some 8 ∧ ¬ Drains 2 m (.grantCredits 8)) ∧
      (flooded.countCall 2 far).1.channelTo 2 = [] ∧
      owedTo (flooded.countCall 2 far).1 2 = some 8 ∧
      ¬ Runs.Meets (TransportManager.countCall · 2) (fun m _ c => Drains 2 m c) m []
        (List.replicate 7 far ++ [far]) := by
  intro m far granted flooded
  have hgranted : owedTo granted 2 = some 8 := by decide
  have hflooded : owedTo (flooded.countCall 2 far).1 2 = some 8 := by decide
  refine ⟨⟨by decide, hgranted, ?_⟩, by decide, hflooded, ?_⟩
  · intro hdrains
    exact hdrains.owedTo_ne hgranted
  · intro hmeets
    have hdrains : Drains 2 flooded far := hmeets.split.2.1
    exact hdrains.owedTo_ne hflooded

end UniBus.Transport
