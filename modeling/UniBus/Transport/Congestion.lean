import UniBus.Transport.Retries

/-!
# The congestion window and fast retransmission

What acknowledgements make of the window and of the duplicate count. Handling an ACK frame
records its number before `process_ack` compares it, so the window does not grow there;
called on its own, `on_new_ack` can drive the window over the largest number. The
duplicate count does not tell stale acknowledgements from repeated ones.
-/
namespace UniBus.Transport

open Wire

namespace ReliableSession

variable (s : ReliableSession)

/-! ## The window after one ACK -/

theorem processAck_window (now : Instant) (ack : AckPayload) :
    (s.processAck now ack).1.ssthresh = s.ssthresh ∧
      (s.processAck now ack).1.cwnd =
        if s.lastAckSeq < ack.ackSeq.toNat then s.onNewAck.cwnd else s.cwnd := by
  rcases s.processAck_cases now ack with ⟨hold, heq⟩ | ⟨hnew, srtt, rttvar, rto, heq⟩
  · rw [heq, if_neg (Nat.not_lt.mpr hold)]
    exact ⟨rfl, rfl⟩
  · rw [heq, if_pos hnew]
    exact ⟨rfl, rfl⟩

theorem processAckForFastRetransmit_window (ack : AckPayload) :
    (s.processAckForFastRetransmit ack).1.ssthresh = s.ssthresh ∧
      (s.processAckForFastRetransmit ack).1.cwnd = s.cwnd := by
  obtain ⟨lastAckSeq, dupAckCount, heq⟩ := s.processAckForFastRetransmit_eq ack
  rw [heq]
  exact ⟨rfl, rfl⟩

/-- The two functions that handle an ACK never grow the window together. -/
theorem cwnd_handleAck (now : Instant) (ack : AckPayload) :
    ((s.processAckForFastRetransmit ack).1.processAck now ack).1.cwnd = s.cwnd := by
  have hold := s.ackSeq_le_lastAckSeq ack
  rw [(processAck_window _ now ack).2, if_neg (Nat.not_lt.mpr hold)]
  exact (s.processAckForFastRetransmit_window ack).2

theorem onNewAck_cwnd_toNat (h : s.cwnd ≠ 0xFFFFFFFF) :
    s.onNewAck.cwnd.toNat =
      if s.cwnd < s.ssthresh then min (s.cwnd.toNat * 2) 0xFFFFFFFF else s.cwnd.toNat + 1 := by
  have hne : s.cwnd.toNat ≠ 0xFFFFFFFF := fun heq => h (UInt32.toNat_inj.mp heq)
  have hlt := s.cwnd.toNat_lt
  change (if s.cwnd < s.ssthresh then UInt32.ofNat (min (s.cwnd.toNat * 2) 0xFFFFFFFF)
    else s.cwnd + 1).toNat = _
  split_ifs
  · exact UInt32.toNat_ofNat_of_lt' (by change _ < 2 ^ 32; omega)
  · exact Checked.toNat_addU32_one (by omega)

/-- The growth that `on_new_ack` prescribes is none only for a window of 0 below the
threshold. -/
theorem onNewAck_cwnd_eq_iff (h : s.cwnd ≠ 0xFFFFFFFF) :
    s.onNewAck.cwnd = s.cwnd ↔ s.cwnd = 0 ∧ s.ssthresh ≠ 0 := by
  have hgrown := s.onNewAck_cwnd_toNat h
  have hne : s.cwnd.toNat ≠ 0xFFFFFFFF := fun heq => h (UInt32.toNat_inj.mp heq)
  have hlt := s.cwnd.toNat_lt
  rw [← UInt32.toNat_inj, hgrown, ← UInt32.toNat_inj, ne_eq, ← UInt32.toNat_inj,
    UInt32.toNat_zero]
  split_ifs with hbelow
  · have hbelow' : s.cwnd.toNat < s.ssthresh.toNat := hbelow
    omega
  · have hbelow' : s.ssthresh.toNat ≤ s.cwnd.toNat := Nat.not_lt.mp hbelow
    omega

/-- The window after an ACK. One that advances lets it grow as `on_new_ack` prescribes,
short of the largest number; one that neither advances nor triggers a fast retransmission
leaves it as it is. -/
structure WindowFollows (s s' : ReliableSession) (ack : AckPayload) : Prop where
  advancing : s.lastAckSeq < ack.ackSeq.toNat → s.cwnd ≠ 0xFFFFFFFF →
    s'.cwnd = s.onNewAck.cwnd
  repeated : ack.ackSeq.toNat ≤ s.lastAckSeq → (s.processAckForFastRetransmit ack).2 = none →
    s'.cwnd = s.cwnd

end ReliableSession

theorem ActiveSession.handleAckFrame {m : TransportManager} {header : FrameHeader}
    {session : ReliableSession} (h : ActiveSession m header.srcNode session)
    {payload : List UInt8} {ack : AckPayload}
    (hack : decodeAckPayload payload (header.flags.contains FrameFlags.hasSack) = .ok ack)
    (now : Instant) :
    ActiveSession (m.handleAckFrame now header payload) header.srcNode
      ((session.processAckForFastRetransmit ack).1.processAck now ack).1 := by
  have htouches := TransportManager.Touches.handleAckFrame m now header payload
  have hkey : (m.handleAckFrame now header payload).currentKey header.srcNode =
      m.currentKey header.srcNode := by
    simp only [TransportManager.currentKey, TransportManager.keyFor, htouches.localNodeId,
      htouches.peerEpochs]
  have hcounted := session.sameReceiver_processAckForFastRetransmit ack
  have hacked := (session.processAckForFastRetransmit ack).1.sameReceiver_processAck now ack
  constructor
  · rw [hkey]
    unfold TransportManager.handleAckFrame
    rw [hack]
    dsimp only
    rw [h.lookup]
    dsimp only
    split
    · rw [TransportManager.sendFrameToPeer_sessions]
      exact TransportManager.lookup_setSession_self _ _
    · exact TransportManager.lookup_setSession_self _ _
  · rw [hacked.state, hcounted.state]
    exact h.active

/-- The window follows an ACK frame only where there is nothing to follow: the ACK does not
advance, or the window cannot grow. -/
theorem window_follows_ack_iff {m : TransportManager} {header : FrameHeader}
    {session : ReliableSession} (h : ActiveSession m header.srcNode session)
    {payload : List UInt8} {ack : AckPayload}
    (hack : decodeAckPayload payload (header.flags.contains FrameFlags.hasSack) = .ok ack)
    (now : Instant) :
    ∃ session', ActiveSession (m.handleAckFrame now header payload) header.srcNode session' ∧
      (session.WindowFollows session' ack ↔
        (session.lastAckSeq < ack.ackSeq.toNat →
          session.cwnd = 0xFFFFFFFF ∨ session.cwnd = 0 ∧ session.ssthresh ≠ 0)) := by
  refine ⟨_, h.handleAckFrame hack now, ?_⟩
  have hsame := session.cwnd_handleAck now ack
  constructor
  · intro hfollows hnew
    by_cases hmax : session.cwnd = 0xFFFFFFFF
    · exact Or.inl hmax
    · have hgrown := hfollows.advancing hnew hmax
      rw [hsame] at hgrown
      exact Or.inr ((session.onNewAck_cwnd_eq_iff hmax).mp hgrown.symm)
  · intro hcond
    constructor
    · intro hnew hmax
      rw [hsame, (session.onNewAck_cwnd_eq_iff hmax).mpr ((hcond hnew).resolve_left hmax)]
    · intro _ _
      exact hsame

theorem decodeAckPayload_encode_empty {ack : AckPayload} (h : ack.sackBitmap = none) :
    decodeAckPayload (encodeAckPayload ack) (FrameFlags.empty.contains FrameFlags.hasSack) =
      .ok ack := by
  have hflag : FrameFlags.empty.contains FrameFlags.hasSack = ack.sackBitmap.isSome := by
    rw [h]
    decide
  rw [hflag]
  exact decodeAckPayload_encode ack

theorem window_follows_ack_repeated :
    let header : FrameHeader := ⟨magic, version, .ack, FrameFlags.empty, 2, 1, 0, 0, 0, 0⟩
    ∃ session',
      ActiveSession (pairedManager.handleAckFrame 7 header (encodeAckPayload ⟨0, 3, 0, none⟩)) 2
        session' ∧
      (ReliableSession.new 1 2 100 200 8 64).WindowFollows session' ⟨0, 3, 0, none⟩ := by
  intro header
  have hactive : ActiveSession pairedManager header.srcNode (.new 1 2 100 200 8 64) :=
    createSession_active createSession_pairedManager
  have hack : decodeAckPayload (encodeAckPayload ⟨0, 3, 0, none⟩)
      (header.flags.contains FrameFlags.hasSack) = .ok ⟨0, 3, 0, none⟩ :=
    decodeAckPayload_encode_empty rfl
  obtain ⟨session', hsession, hfollows⟩ := window_follows_ack_iff hactive hack 7
  exact ⟨session', hsession, hfollows.mpr fun hnew => absurd hnew (Nat.lt_irrefl 0)⟩

/-- The first ACK of a session leaves its window of 64 frames, which should double. -/
theorem advancing_ack_leaves_window :
    let header : FrameHeader := ⟨magic, version, .ack, FrameFlags.empty, 2, 1, 0, 0, 0, 0⟩
    let session : ReliableSession := .new 1 2 100 200 8 64
    let ack : AckPayload := ⟨1, 0, 0, none⟩
    ActiveSession pairedManager 2 session ∧ session.lastAckSeq < ack.ackSeq.toNat ∧
      session.onNewAck.cwnd = 128 ∧
      ∃ session',
        ActiveSession (pairedManager.handleAckFrame 7 header (encodeAckPayload ack)) 2 session' ∧
        session'.cwnd = 64 ∧ ¬ session.WindowFollows session' ack := by
  intro header session ack
  have hactive : ActiveSession pairedManager header.srcNode session :=
    createSession_active createSession_pairedManager
  have hack : decodeAckPayload (encodeAckPayload ack)
      (header.flags.contains FrameFlags.hasSack) = .ok ack :=
    decodeAckPayload_encode_empty rfl
  have hsame := session.cwnd_handleAck 7 ack
  refine ⟨hactive, Nat.zero_lt_one, by decide, _, hactive.handleAckFrame hack 7, hsame, ?_⟩
  intro hfollows
  have hgrown := hfollows.advancing Nat.zero_lt_one (by decide)
  rw [hsame] at hgrown
  exact absurd hgrown (by decide)

namespace ReliableSession

variable (s : ReliableSession)

/-! ## The window over a run -/

/-- A call as far as it computes the window, checked: the other calls divide, subtract
down to 0 or do not compute at all. -/
def windowCall? : SenderCall → Option ReliableSession
  | .onNewAck => s.onNewAck?
  | .processAck now ack => (s.processAck? now ack).map Prod.fst
  | c => some (s.call c).1

/-- The calls that take the ACK for a new one. -/
def Grows : SenderCall → Prop
  | .onNewAck => True
  | .processAck _ ack => s.lastAckSeq < ack.ackSeq.toNat
  | _ => False

structure WindowOpen : Prop where
  cwnd : 1 ≤ s.cwnd.toNat
  ssthresh : 2 ≤ s.ssthresh.toNat

/-- The call computes the window without overflow and leaves it open, and what may be sent
is what the window leaves beside the queue. -/
structure WindowSafe (c : SenderCall) : Prop where
  safe : s.windowCall? c = some (s.call c).1
  isOpen : (s.call c).1.WindowOpen
  sendAvailable : (s.call c).1.retransmitQueue.length < 2 ^ 32 →
    (s.call c).1.sendAvailable.toNat =
      (s.call c).1.cwnd.toNat - (s.call c).1.retransmitQueue.length

theorem sendAvailable_toNat (h : s.retransmitQueue.length < 2 ^ 32) :
    s.sendAvailable.toNat = s.cwnd.toNat - s.retransmitQueue.length := by
  have hlen : (UInt32.ofNat s.retransmitQueue.length).toNat = s.retransmitQueue.length :=
    UInt32.toNat_ofNat_of_lt' h
  change (if s.cwnd < UInt32.ofNat s.retransmitQueue.length then 0
    else s.cwnd - UInt32.ofNat s.retransmitQueue.length).toNat = _
  split_ifs with hlt
  · rw [UInt32.lt_iff_toNat_lt, hlen] at hlt
    rw [UInt32.toNat_zero]
    omega
  · rw [UInt32.toNat_sub_of_le _ _ (UInt32.not_lt.mp hlt), hlen]

/-- The only window that cannot grow is the largest. -/
theorem onNewAck?_eq :
    s.onNewAck? = if s.cwnd = 0xFFFFFFFF then none else some s.onNewAck := by
  have hlt := s.cwnd.toNat_lt
  have hthresh := s.ssthresh.toNat_lt
  have hmax : s.cwnd = 0xFFFFFFFF ↔ s.cwnd.toNat = 0xFFFFFFFF := UInt32.toNat_inj.symm
  unfold onNewAck? onNewAck
  by_cases hbelow : s.cwnd < s.ssthresh
  · have hbelow' : s.cwnd.toNat < s.ssthresh.toNat := hbelow
    have hne : s.cwnd ≠ 0xFFFFFFFF := by
      rw [ne_eq, hmax]
      omega
    simp only [if_pos hbelow, if_neg hne]
    rfl
  · simp only [if_neg hbelow]
    by_cases hroom : s.cwnd.toNat + 1 < 2 ^ 32
    · have hne : s.cwnd ≠ 0xFFFFFFFF := by
        rw [ne_eq, hmax]
        omega
      rw [Checked.addU32_one hroom, if_neg hne]
      rfl
    · rw [Checked.addU32_one_eq_none (Nat.not_lt.mp hroom), if_pos (hmax.mpr (by omega))]
      rfl

theorem onNewAck?_eq_some_iff : s.onNewAck? = some s.onNewAck ↔ s.cwnd ≠ 0xFFFFFFFF := by
  rw [onNewAck?_eq]
  split_ifs with hmax
  · exact iff_of_false (fun h => by cases h) (fun hne => hne hmax)
  · exact iff_of_true rfl hmax

/-- The session when `process_ack` comes to the window. -/
def credited (now : Instant) (ack : AckPayload) : ReliableSession :=
  let removed := s.retransmitQueue.filter (ackedBy ack.ackSeq.toNat)
  let keep := s.retransmitQueue.filter fun e => !ackedBy ack.ackSeq.toNat e
  let s := removed.foldl (fun s entry => s.sampleEntry now entry) s
  { s with retransmitQueue := keep }.addCredits ack.creditGrant

theorem processAck?_eq_some_iff (now : Instant) (ack : AckPayload) :
    (s.processAck? now ack).map Prod.fst = some (s.processAck now ack).1 ↔
      (s.lastAckSeq < ack.ackSeq.toNat → s.cwnd ≠ 0xFFFFFFFF) := by
  by_cases hnew : s.lastAckSeq < ack.ackSeq.toNat
  · have hcwnd : (s.credited now ack).cwnd = s.cwnd := by
      obtain ⟨srtt, rttvar, rto, hsampled⟩ :=
        s.sampleEntries_eq now (s.retransmitQueue.filter (ackedBy ack.ackSeq.toNat))
      rw [credited, hsampled]
      rfl
    have hchecked : (s.processAck? now ack).map Prod.fst = (s.credited now ack).onNewAck? := by
      simp only [processAck?, gt_iff_lt, hnew, decide_true, if_true]
      change Option.map Prod.fst ((s.credited now ack).onNewAck?.bind _) = _
      cases (s.credited now ack).onNewAck? <;> rfl
    have hplain : (s.processAck now ack).1 = (s.credited now ack).onNewAck := by
      simp only [processAck, gt_iff_lt, hnew, decide_true, if_true]
      rfl
    rw [hchecked, hplain, onNewAck?_eq_some_iff, hcwnd, imp_iff_right hnew]
  · rw [processAck?_eq (Nat.not_lt.mp hnew)]
    exact iff_of_true rfl (absurd · hnew)

variable {s}

/-- A call that does not take an ACK for a new one leaves the window as it is, or closes it
after a loss. -/
theorem window_call {c : SenderCall} (h : ¬ s.Grows c) :
    ((s.call c).1.cwnd = s.cwnd ∧ (s.call c).1.ssthresh = s.ssthresh) ∨
      (s.call c).1.cwnd = 1 ∧ (s.call c).1.ssthresh.toNat = max (s.cwnd.toNat / 2) 2 := by
  cases c with
  | assignSeq => exact Or.inl ⟨rfl, rfl⟩
  | processAck now ack =>
    obtain ⟨hthresh, hcwnd⟩ := s.processAck_window now ack
    exact Or.inl ⟨hcwnd.trans (if_neg h), hthresh⟩
  | processAckForFastRetransmit ack =>
    exact Or.inl (s.processAckForFastRetransmit_window ack).symm
  | completeRequest => exact Or.inl ⟨rfl, rfl⟩
  | onNewAck => exact absurd trivial h
  | onLoss => exact Or.inr ⟨rfl, s.ssthresh_onLoss⟩
  | checkRto now =>
    have hchecked := s.windowChecked now
    by_cases hnone : (s.checkRto now).2 = []
    · exact Or.inl (hchecked.calm hnone).symm
    · exact Or.inr (hchecked.loss hnone).symm
  | kill => exact Or.inl ⟨rfl, rfl⟩

theorem WindowOpen.onNewAck (h : s.WindowOpen) (hmax : s.cwnd ≠ 0xFFFFFFFF) :
    1 ≤ s.onNewAck.cwnd.toNat := by
  have hcwnd := h.cwnd
  rw [s.onNewAck_cwnd_toNat hmax]
  split_ifs <;> omega

theorem WindowOpen.windowSafe_iff (h : s.WindowOpen) (c : SenderCall) :
    s.WindowSafe c ↔ (s.Grows c → s.cwnd ≠ 0xFFFFFFFF) := by
  have hsend := (s.call c).1.sendAvailable_toNat
  by_cases hgrows : s.Grows c
  · rw [imp_iff_right hgrows]
    cases c with
    | onNewAck =>
      constructor
      · intro hsafe
        exact s.onNewAck?_eq_some_iff.mp hsafe.safe
      · intro hmax
        exact ⟨s.onNewAck?_eq_some_iff.mpr hmax, ⟨h.onNewAck hmax, h.ssthresh⟩, hsend⟩
    | processAck now ack =>
      obtain ⟨hthresh, hcwnd⟩ := s.processAck_window now ack
      replace hcwnd := hcwnd.trans (if_pos hgrows)
      constructor
      · intro hsafe
        exact (s.processAck?_eq_some_iff now ack).mp hsafe.safe hgrows
      · intro hmax
        refine ⟨(s.processAck?_eq_some_iff now ack).mpr fun _ => hmax, ⟨?_, ?_⟩, hsend⟩
        · exact hcwnd ▸ h.onNewAck hmax
        · exact hthresh ▸ h.ssthresh
    | _ => cases hgrows
  · refine iff_of_true ⟨?_, ?_, hsend⟩ fun hc => absurd hc hgrows
    · cases c with
      | onNewAck => exact absurd trivial hgrows
      | processAck now ack =>
        exact (s.processAck?_eq_some_iff now ack).mpr fun hnew => absurd hnew hgrows
      | _ => rfl
    · rcases window_call hgrows with ⟨hcwnd, hthresh⟩ | ⟨hcwnd, hthresh⟩
      · exact ⟨hcwnd ▸ h.cwnd, hthresh ▸ h.ssthresh⟩
      · exact ⟨hcwnd ▸ le_rfl, hthresh ▸ le_max_right _ _⟩

/-- Over a run of calls, the window stays in its type and open as long as it is not grown
from the largest number. -/
theorem window_arithmetic_safe_iff (localNode remoteNode : UInt16) (epoch : UInt32)
    (rtoBaseMs maxRetries : ℕ) {initialCredits : UInt32} (hcredits : 1 ≤ initialCredits.toNat)
    (calls : List SenderCall) :
    let start := new localNode remoteNode epoch rtoBaseMs maxRetries initialCredits
    start.WindowOpen ∧
      (Runs.Meets call (fun s _ c => s.WindowSafe c) start [] calls ↔
        Runs.Meets call (fun s _ c => s.Grows c → s.cwnd ≠ 0xFFFFFFFF) start [] calls) := by
  intro start
  have hopen : start.WindowOpen := ⟨hcredits, (by decide : 2 ≤ (0xFFFFFFFF : UInt32).toNat)⟩
  refine ⟨hopen, ?_⟩
  apply Runs.meets_iff (I := fun (s : ReliableSession) _ => s.WindowOpen)
  · intro s _ c h
    exact h.windowSafe_iff c
  · intro s _ c _ hsafe
    exact hsafe.isOpen
  · exact hopen

theorem window_arithmetic_safe_lossy :
    Runs.Meets call (fun s _ c => s.WindowSafe c) (new 1 2 5 200 8 1) []
      [.onNewAck, .processAck 9 ⟨3, 1, 0, none⟩, .onLoss, .onNewAck, .onNewAck, .checkRto 5] := by
  have hone : 1 ≤ (1 : UInt32).toNat := le_rfl
  apply (window_arithmetic_safe_iff 1 2 5 200 8 hone _).2.mpr
  refine ⟨fun _ => ?_, fun _ => ?_, fun _ => ?_, fun _ => ?_, fun _ => ?_, fun _ => ?_, trivial⟩
  all_goals decide

/-- From one credit, 32 acknowledgements double the window to the largest number; the
next one overflows. -/
theorem window_overflows :
    let calls := List.replicate 32 SenderCall.onNewAck
    (Runs.run call (new 1 2 5 200 8 1) calls).1.cwnd = 0xFFFFFFFF ∧
      (Runs.run call (new 1 2 5 200 8 1) calls).1.onNewAck? = none ∧
      ¬ Runs.Meets call (fun s _ c => s.WindowSafe c) (new 1 2 5 200 8 1) []
        (calls ++ [.onNewAck]) := by
  intro calls
  have hmax : (Runs.run call (new 1 2 5 200 8 1) calls).1.cwnd = 0xFFFFFFFF := by
    decide +kernel
  have hpanic : (Runs.run call (new 1 2 5 200 8 1) calls).1.onNewAck? = none := by
    rw [onNewAck?_eq, if_pos hmax]
  refine ⟨hmax, hpanic, ?_⟩
  intro hsafe
  obtain ⟨-, hlast⟩ := hsafe.split
  have hsome := hlast.1.safe
  rw [windowCall?, hpanic] at hsome
  cases hsome

/-! ## Fast retransmission -/

def ackSeqs (log : List SenderEvent) : List ℕ :=
  log.filterMap fun event =>
    match event with
    | .counted ackSeq _ => some ackSeq
    | _ => none

/-- The first frame that no ACK has covered; its number fits the type of the counter. -/
def FirstUnacked (log : List SenderEvent) (seq : ℕ) : Prop :=
  IsLeast {n | ∀ ackSeq ∈ ackSeqs log, ackSeq < n} seq ∧ seq < 2 ^ 64

/-- A frame that the duplicate count asks to resend has not been acknowledged, neither by
an earlier ACK nor by this one. -/
def TargetsUnacked (log : List SenderEvent) : SenderEvent → Prop
  | .counted ackSeq (some seq) => FirstUnacked (log ++ [.counted ackSeq (some seq)]) seq
  | _ => True

/-- When the third ACK that does not advance triggers a retransmission, it repeats the
latest number, and there is a next one. -/
def TriggersOnRepeat (s : ReliableSession) : SenderCall → Prop
  | .processAckForFastRetransmit ack =>
    ack.ackSeq.toNat ≤ s.lastAckSeq → s.dupAckCount = 2 →
      ack.ackSeq.toNat = s.lastAckSeq ∧ ack.ackSeq.toNat + 1 < 2 ^ 64
  | _ => True

/-- The latest number is the largest one passed, and the count stays below three. -/
structure AcksSeen (s : ReliableSession) (log : List SenderEvent) : Prop where
  le : ∀ ackSeq ∈ ackSeqs log, ackSeq ≤ s.lastAckSeq
  mem : s.lastAckSeq = 0 ∨ s.lastAckSeq ∈ ackSeqs log
  count : s.dupAckCount.toNat < 3

theorem processAckForFastRetransmit_cases (s : ReliableSession) (ack : AckPayload)
    (hcount : s.dupAckCount.toNat < 3) :
    (s.lastAckSeq < ack.ackSeq.toNat ∧ s.processAckForFastRetransmit ack =
        ({ s with lastAckSeq := ack.ackSeq.toNat, dupAckCount := 0 }, none)) ∨
      (ack.ackSeq.toNat ≤ s.lastAckSeq ∧ s.dupAckCount ≠ 2 ∧ (s.dupAckCount + 1).toNat < 3 ∧
        s.processAckForFastRetransmit ack =
          ({ s with dupAckCount := s.dupAckCount + 1 }, none)) ∨
      (ack.ackSeq.toNat ≤ s.lastAckSeq ∧ s.dupAckCount = 2 ∧
        s.processAckForFastRetransmit ack =
          ({ s with dupAckCount := 0 }, some (ack.ackSeq.toNat + 1))) := by
  have hsum : (s.dupAckCount + 1).toNat = s.dupAckCount.toNat + 1 :=
    Checked.toNat_addU32_one (by omega)
  have htwo : s.dupAckCount = 2 ↔ s.dupAckCount.toNat = 2 := UInt32.toNat_inj.symm
  have hthree : s.dupAckCount + 1 ≥ 3 ↔ s.dupAckCount = 2 := by
    rw [ge_iff_le, UInt32.le_iff_toNat_le, hsum, htwo]
    change 3 ≤ s.dupAckCount.toNat + 1 ↔ _
    omega
  unfold processAckForFastRetransmit
  dsimp only
  by_cases hnew : ack.ackSeq.toNat > s.lastAckSeq
  · exact Or.inl ⟨hnew, if_pos hnew⟩
  · rw [if_neg hnew]
    by_cases htrigger : s.dupAckCount = 2
    · exact Or.inr (Or.inr ⟨Nat.not_lt.mp hnew, htrigger, if_pos (hthree.mpr htrigger)⟩)
    · have hlt : (s.dupAckCount + 1).toNat < 3 := by
        rw [htwo] at htrigger
        omega
      exact Or.inr (Or.inl
        ⟨Nat.not_lt.mp hnew, htrigger, hlt, if_neg (mt hthree.mp htrigger)⟩)

variable {log : List SenderEvent}

theorem ackSeqs_append (log events : List SenderEvent) :
    ackSeqs (log ++ events) = ackSeqs log ++ ackSeqs events :=
  List.filterMap_append

theorem acksSeen_new (localNode remoteNode : UInt16) (epoch : UInt32)
    (rtoBaseMs maxRetries : ℕ) (initialCredits : UInt32) :
    (new localNode remoteNode epoch rtoBaseMs maxRetries initialCredits).AcksSeen [] := by
  constructor
  · exact fun _ h => absurd h List.not_mem_nil
  · exact Or.inl rfl
  · exact (by decide : (0 : UInt32).toNat < 3)

theorem AcksSeen.append (h : s.AcksSeen log) {s' : ReliableSession} {events : List SenderEvent}
    (hlast : s'.lastAckSeq = s.lastAckSeq) (hcount : s'.dupAckCount.toNat < 3)
    (hevents : ∀ ackSeq ∈ ackSeqs events, ackSeq ≤ s.lastAckSeq) :
    s'.AcksSeen (log ++ events) := by
  constructor
  · intro ackSeq hmem
    rw [hlast]
    rw [ackSeqs_append, List.mem_append] at hmem
    exact hmem.elim (h.le ackSeq) (hevents ackSeq)
  · rw [hlast, ackSeqs_append]
    exact h.mem.imp_right (List.mem_append_left _)
  · exact hcount

theorem AcksSeen.counted (h : s.AcksSeen log) (ack : AckPayload) :
    let c : SenderCall := .processAckForFastRetransmit ack
    (s.call c).1.AcksSeen (log ++ (s.call c).2) := by
  intro c
  have hzero : (0 : UInt32).toNat < 3 := by decide
  have hsingle : ∀ seq, ∀ ackSeq ∈ ackSeqs [.counted ack.ackSeq.toNat seq],
      ackSeq = ack.ackSeq.toNat := fun _ _ => List.mem_singleton.mp
  rw [call_processAckForFastRetransmit]
  rcases s.processAckForFastRetransmit_cases ack h.count with
    ⟨hnew, heq⟩ | ⟨hold, -, hcount, heq⟩ | ⟨hold, -, heq⟩
  · rw [heq]
    constructor
    · intro ackSeq hmem
      rw [ackSeqs_append, List.mem_append] at hmem
      rcases hmem with hearlier | hthis
      · exact (h.le ackSeq hearlier).trans hnew.le
      · exact (hsingle _ ackSeq hthis).le
    · rw [ackSeqs_append]
      exact Or.inr (List.mem_append_right _ (List.mem_singleton.mpr rfl))
    · exact hzero
  · rw [heq]
    exact h.append rfl hcount fun ackSeq hmem => (hsingle _ ackSeq hmem).trans_le hold
  · rw [heq]
    exact h.append rfl hzero fun ackSeq hmem => (hsingle _ ackSeq hmem).trans_le hold

theorem processAck_acksSeen (s : ReliableSession) (now : Instant) (ack : AckPayload) :
    (s.processAck now ack).1.lastAckSeq = s.lastAckSeq ∧
      ((s.processAck now ack).1.dupAckCount = s.dupAckCount ∨
        (s.processAck now ack).1.dupAckCount = 0) := by
  rcases s.processAck_cases now ack with ⟨-, heq⟩ | ⟨-, srtt, rttvar, rto, heq⟩
  · rw [heq]
    exact ⟨rfl, Or.inl rfl⟩
  · rw [heq]
    exact ⟨rfl, Or.inr rfl⟩

theorem checkRto_acksSeen (s : ReliableSession) (now : Instant) :
    (s.checkRto now).1.lastAckSeq = s.lastAckSeq ∧
      ((s.checkRto now).1.dupAckCount = s.dupAckCount ∨
        (s.checkRto now).1.dupAckCount = 0) := by
  rcases s.checkRto_cases now with ⟨-, heq⟩ | ⟨-, -, heq⟩ | ⟨-, -, -, heq⟩ | ⟨-, -, -, heq⟩
  · rw [heq]
    exact ⟨rfl, Or.inl rfl⟩
  · rw [heq]
    exact ⟨rfl, Or.inl rfl⟩
  · rw [heq]
    exact ⟨rfl, Or.inl rfl⟩
  · rw [heq]
    exact ⟨rfl, Or.inr rfl⟩

section
variable (h : s.AcksSeen log)
include h

theorem AcksSeen.count_of_same_or_zero {count : UInt32}
    (hcount : count = s.dupAckCount ∨ count = 0) :
    count.toNat < 3 := by
  rcases hcount with rfl | rfl
  · exact h.count
  · decide

theorem AcksSeen.call (c : SenderCall) :
    (s.call c).1.AcksSeen (log ++ (s.call c).2) := by
  have hsame := h.count_of_same_or_zero (Or.inl rfl)
  have hzero := h.count_of_same_or_zero (Or.inr rfl)
  have hnone : ∀ ackSeq ∈ ([] : List ℕ), ackSeq ≤ s.lastAckSeq :=
    fun _ hmem => absurd hmem List.not_mem_nil
  cases c with
  | assignSeq => exact h.append rfl hsame hnone
  | processAck now ack =>
    obtain ⟨hlast, hcount⟩ := s.processAck_acksSeen now ack
    exact h.append hlast (h.count_of_same_or_zero hcount) hnone
  | processAckForFastRetransmit ack => exact h.counted ack
  | completeRequest => exact h.append rfl hsame hnone
  | onNewAck => exact h.append rfl hzero hnone
  | onLoss => exact h.append rfl hzero hnone
  | checkRto now =>
    obtain ⟨hlast, hcount⟩ := s.checkRto_acksSeen now
    apply h.append hlast (h.count_of_same_or_zero hcount)
    intro ackSeq hmem
    simp [call_checkRto, ackSeqs] at hmem
  | kill => exact h.append rfl hsame hnone

/-- A trigger names the first frame not acknowledged exactly if it repeats the latest
number. -/
theorem AcksSeen.firstUnacked_iff {ackSeq : ℕ} (hold : ackSeq ≤ s.lastAckSeq) (seq : Option ℕ) :
    FirstUnacked (log ++ [.counted ackSeq seq]) (ackSeq + 1) ↔
      ackSeq = s.lastAckSeq ∧ ackSeq + 1 < 2 ^ 64 := by
  have hmem : ∀ n, n ∈ ackSeqs (log ++ [.counted ackSeq seq]) ↔ n ∈ ackSeqs log ∨ n = ackSeq := by
    intro n
    rw [ackSeqs_append, List.mem_append]
    exact or_congr_right List.mem_singleton
  apply and_congr_left
  intro _
  constructor
  · intro hleast
    rcases h.mem with hzero | hlast
    · omega
    · have hlt := hleast.1 s.lastAckSeq ((hmem _).mpr (Or.inl hlast))
      omega
  · intro hlast
    constructor
    · intro n hn
      rcases (hmem n).mp hn with hearlier | rfl
      · have hle := h.le n hearlier
        omega
      · exact Nat.lt_succ_self _
    · intro n hn
      exact hn ackSeq ((hmem _).mpr (Or.inr rfl))

/-- The event of an ACK passed to the count is justified exactly if the ACK triggers on a
repeat or not at all. -/
theorem AcksSeen.targetsUnacked_iff (ack : AckPayload) :
    TargetsUnacked log (.counted ack.ackSeq.toNat (s.processAckForFastRetransmit ack).2) ↔
      s.TriggersOnRepeat (.processAckForFastRetransmit ack) := by
  rcases s.processAckForFastRetransmit_cases ack h.count with
    ⟨hnew, heq⟩ | ⟨-, hcount, -, heq⟩ | ⟨hold, hcount, heq⟩
  · rw [heq]
    exact iff_of_true trivial fun hold => absurd hold (Nat.not_le.mpr hnew)
  · rw [heq]
    exact iff_of_true trivial fun _ htwo => absurd htwo hcount
  · rw [heq]
    constructor
    · intro htarget _ _
      exact (h.firstUnacked_iff hold _).mp htarget
    · intro hrepeat
      exact (h.firstUnacked_iff hold _).mpr (hrepeat hold hcount)

theorem AcksSeen.triggersOnRepeat {c : SenderCall}
    (hlog : Runs.Justified TargetsUnacked (log ++ (s.call c).2)) : s.TriggersOnRepeat c := by
  cases c with
  | processAckForFastRetransmit ack => exact (h.targetsUnacked_iff ack).mp (hlog log _ [] rfl)
  | _ => trivial

theorem AcksSeen.justified (hlog : Runs.Justified TargetsUnacked log) {c : SenderCall}
    (hrepeat : s.TriggersOnRepeat c) :
    Runs.Justified TargetsUnacked (log ++ (s.call c).2) := by
  cases c with
  | assignSeq => exact hlog.concat trivial
  | processAckForFastRetransmit ack => exact hlog.concat ((h.targetsUnacked_iff ack).mpr hrepeat)
  | checkRto now =>
    apply hlog.append
    intro mid event after hevents
    have hmem : event ∈ (s.call (.checkRto now)).2 := by
      rw [hevents]
      exact List.mem_append_right _ List.mem_cons_self
    rw [call_checkRto] at hmem
    obtain ⟨seq, -, rfl⟩ := List.mem_map.mp hmem
    trivial
  | _ => exact (List.append_nil log).symm ▸ hlog

end

/-- What the duplicate count asks to resend is never acknowledged, exactly for the runs
whose triggering ACKs repeat the latest number. -/
theorem fast_retransmit_targets_unacked_iff (localNode remoteNode : UInt16) (epoch : UInt32)
    (rtoBaseMs maxRetries : ℕ) (initialCredits : UInt32) (calls : List SenderCall) :
    let start := new localNode remoteNode epoch rtoBaseMs maxRetries initialCredits
    Runs.Justified TargetsUnacked (Runs.run call start calls).2 ↔
      Runs.Meets call (fun s _ c => s.TriggersOnRepeat c) start [] calls := by
  intro start
  have hstart : start.AcksSeen [] := acksSeen_new _ _ _ _ _ _
  constructor
  · intro hjustified
    have hmeets : Runs.Meets call
        (fun s log c => Runs.Justified TargetsUnacked (log ++ (s.call c).2)) start [] calls :=
      Runs.meets_of_log (fun _ _ => Runs.Justified.left) hjustified
    exact hmeets.of_invariant (I := AcksSeen) (fun _ _ _ h hlog => h.triggersOnRepeat hlog)
      (fun _ _ c h _ => h.call c) hstart
  · intro hmeets
    have hboth : start.AcksSeen [] ∧ Runs.Justified TargetsUnacked [] :=
      ⟨hstart, Runs.justified_nil⟩
    exact (Runs.run_invariant
      (I := fun (s : ReliableSession) log => s.AcksSeen log ∧ Runs.Justified TargetsUnacked log)
      (fun _ _ c h hrepeat => ⟨h.1.call c, h.1.justified h.2 hrepeat⟩) hboth hmeets).2

/-- Three ACKs with number 5 after one with number 10 ask to resend frame 6, which the
first of them acknowledged. -/
theorem stale_acks_retransmit_acked :
    let acks : List SenderCall := [10, 5, 5, 5].map fun ackSeq =>
      .processAckForFastRetransmit ⟨ackSeq, 0, 0, none⟩
    let log := (Runs.run call (new 1 2 5 200 8 4) acks).2
    log = [.counted 10 none, .counted 5 none, .counted 5 none, .counted 5 (some 6)] ∧
      ¬ Runs.Justified TargetsUnacked log := by
  intro acks log
  have hlog : log = [.counted 10 none, .counted 5 none, .counted 5 none, .counted 5 (some 6)] := by
    decide
  refine ⟨hlog, ?_⟩
  intro hjustified
  have htarget : FirstUnacked log 6 :=
    hlog ▸ hjustified [.counted 10 none, .counted 5 none, .counted 5 none]
      (.counted 5 (some 6)) [] hlog
  have hlt := htarget.1.1 10 (by rw [hlog]; decide)
  omega

end ReliableSession
end UniBus.Transport
