import UniBus.Foundations.Bytes
import UniBus.Transport.Dedup
import UniBus.Transport.ReadCache
import UniBus.Wire.Codec

/-!
# Reliable sessions

One session per peer and epoch: sequencing, retransmission, credits and
congestion control on the send side; the receive window, the execution records
and the response cache on the receive side. Sequence numbers are natural
numbers, counters that wrap in the program are fixed-width, and the smoothed
round-trip times are exact rationals in place of floating-point numbers.
-/
namespace UniBus.Transport

open Wire

structure SessionKey where
  localNode : UInt16
  remoteNode : UInt16
  epoch : UInt32
  deriving DecidableEq, Repr

inductive SessionState
  | active
  | dead
  deriving DecidableEq, Repr

structure RetransmitEntry where
  seq : ℕ
  frame : List UInt8
  firstSentAt : Instant
  rtoDeadline : Instant
  retryCount : ℕ
  isFireAndForget : Bool
  opaqueId : UInt64
  deriving DecidableEq, Repr

inductive ReceiveAction
  | deliver
  | duplicate
  | outOfOrder
  | beyondWindow
  deriving DecidableEq, Repr

structure ReliableSession where
  key : SessionKey
  state : SessionState
  nextSeq : ℕ
  availableCredits : UInt32
  retransmitQueue : List RetransmitEntry
  rtoBaseMs : ℕ
  maxRetries : ℕ
  cwnd : UInt32
  ssthresh : UInt32
  srtt : ℚ
  rttvar : ℚ
  rto : ℕ
  dupAckCount : UInt32
  lastAckSeq : ℕ
  dedup : DedupWindow
  executionRecords : List (ℕ × Bool)
  readCache : ReadResponseCache
  creditsToGrant : UInt32
  framesSinceLastAck : UInt32

namespace ReliableSession

def new (localNode remoteNode : UInt16) (epoch : UInt32) (rtoBaseMs maxRetries : ℕ)
    (initialCredits : UInt32) : ReliableSession where
  key := ⟨localNode, remoteNode, epoch⟩
  state := .active
  nextSeq := 1
  availableCredits := initialCredits
  retransmitQueue := []
  rtoBaseMs := rtoBaseMs
  maxRetries := maxRetries
  cwnd := initialCredits
  ssthresh := 0xFFFFFFFF
  srtt := rtoBaseMs
  rttvar := rtoBaseMs / 2
  rto := min (max rtoBaseMs 200) 60000
  dupAckCount := 0
  lastAckSeq := 0
  dedup := DedupWindow.new 1
  executionRecords := []
  readCache := ReadResponseCache.defaultCache
  creditsToGrant := 0
  framesSinceLastAck := 0

def patchSeq (frame : List UInt8) (seq : ℕ) : List UInt8 :=
  if frame.length ≥ 24 then Bytes.splice frame 16 (BigEndian.put 8 seq) else frame

/-- Sets the ACK_REQ bit in the flags of an encoded frame. -/
def patchAckReq (frame : List UInt8) : List UInt8 :=
  if frame.length ≥ 8 then
    let flags := UInt16.ofNat (BigEndian.get (Bytes.slice frame 6 2))
    Bytes.splice frame 6 (BigEndian.put 2 (flags ||| FrameFlags.ackReq.bits).toNat)
  else frame

variable (s : ReliableSession)

/-- Numbers a frame and queues it; returns the patched frame and its number. -/
def assignSeq (now : Instant) (frame : List UInt8) (isFireAndForget : Bool)
    (opaqueId : UInt64) : ReliableSession × List UInt8 × ℕ :=
  let seq := s.nextSeq
  let frame := patchAckReq (patchSeq frame seq)
  let entry : RetransmitEntry :=
    ⟨seq, frame, now, now + fromMillis s.rto, 0, isFireAndForget, opaqueId⟩
  ({ s with nextSeq := seq + 1, retransmitQueue := s.retransmitQueue ++ [entry] }, frame, seq)

/-- One round-trip sample: both averages, then the timeout in `[200, 60000]` ms. -/
def updateRtt (sampleMs : ℚ) : ReliableSession :=
  let srtt := 7 / 8 * s.srtt + 1 / 8 * sampleMs
  let rttvar := 3 / 4 * s.rttvar + 1 / 4 * |sampleMs - srtt|
  let rto := ⌊srtt + 4 * rttvar + 1 / 2⌋.toNat
  { s with srtt, rttvar, rto := min (max rto 200) 60000 }

def onNewAck : ReliableSession :=
  let cwnd :=
    if s.cwnd < s.ssthresh then UInt32.ofNat (min (s.cwnd.toNat * 2) 0xFFFFFFFF)
    else s.cwnd + 1
  { s with cwnd, dupAckCount := 0 }

def onLoss : ReliableSession :=
  let half := s.cwnd / 2
  { s with ssthresh := if half < 2 then 2 else half, cwnd := 1, dupAckCount := 0 }

def addCredits (credits : UInt32) : ReliableSession :=
  { s with
    availableCredits :=
      UInt32.ofNat (min (s.availableCredits.toNat + credits.toNat) 0xFFFFFFFF) }

def consumeCredit : Except UbError ReliableSession :=
  if s.availableCredits = 0 then .error .noResources
  else .ok { s with availableCredits := s.availableCredits - 1 }

def sendAvailable : UInt32 :=
  let outstanding := UInt32.ofNat s.retransmitQueue.length
  if s.cwnd < outstanding then 0 else s.cwnd - outstanding

/-- An entry that a cumulative acknowledgement removes. -/
def ackedBy (ackSeq : ℕ) (entry : RetransmitEntry) : Bool :=
  decide (entry.seq ≤ ackSeq) && entry.isFireAndForget

/-- The round-trip sample taken from one acknowledged entry, if any. -/
def sampleEntry (now : Instant) (entry : RetransmitEntry) : ReliableSession :=
  let sampleMs := (now - entry.firstSentAt) / 1000000
  if entry.retryCount = 0 ∧ 0 < sampleMs then s.updateRtt sampleMs else s

/-- Removes the acknowledged fire-and-forget entries; returns them. -/
def processAck (now : Instant) (ack : AckPayload) : ReliableSession × List RetransmitEntry :=
  let ackSeq := ack.ackSeq.toNat
  let isNewAck := decide (ackSeq > s.lastAckSeq)
  let removed := s.retransmitQueue.filter (ackedBy ackSeq)
  let keep := s.retransmitQueue.filter fun e => !ackedBy ackSeq e
  let s := if isNewAck then removed.foldl (fun s entry => s.sampleEntry now entry) s else s
  let s := { s with retransmitQueue := keep }.addCredits ack.creditGrant
  (if isNewAck then s.onNewAck else s, removed)

/-- Drops the first request-response entry with this identifier. -/
def completeRequest (opaqueId : UInt64) : ReliableSession :=
  { s with
    retransmitQueue :=
      s.retransmitQueue.eraseP fun e => e.opaqueId == opaqueId && !e.isFireAndForget }

def receiveFrame (seq : ℕ) : ReliableSession × ReceiveAction :=
  let s := { s with
    framesSinceLastAck := s.framesSinceLastAck + 1
    creditsToGrant := s.creditsToGrant + 1 }
  match s.dedup.check seq with
  | .inOrder => ({ s with dedup := s.dedup.markAndAdvance seq }, .deliver)
  | .alreadySeen => (s, .duplicate)
  | .outOfOrder => ({ s with dedup := s.dedup.markAndAdvance seq }, .outOfOrder)
  | .beyondWindow => (s, .beyondWindow)

/-- Records the execution of a write-verb frame; at most 1024 records are kept. -/
def markExecuted (seq : ℕ) : ReliableSession :=
  if s.executionRecords.any fun r => r.1 == seq then
    { s with
      executionRecords :=
        s.executionRecords.modify (s.executionRecords.findIdx fun r => r.1 == seq)
          fun r => (r.1, true) }
  else
    let records := s.executionRecords ++ [(seq, true)]
    { s with executionRecords := records.drop (records.length - 1024) }

def isExecuted (seq : ℕ) : Bool := s.executionRecords.any fun r => r.1 == seq && r.2

/-- Duplicate-ACK counting; the third duplicate names the frame to resend. -/
def processAckForFastRetransmit (ack : AckPayload) : ReliableSession × Option ℕ :=
  let ackSeq := ack.ackSeq.toNat
  if ackSeq > s.lastAckSeq then ({ s with lastAckSeq := ackSeq, dupAckCount := 0 }, none)
  else
    -- the branches with and without a SACK bitmap count alike
    let count := s.dupAckCount + 1
    if count ≥ 3 then ({ s with dupAckCount := 0 }, some (ackSeq + 1))
    else ({ s with dupAckCount := count }, none)

/-- Marks the session dead; returns the unacknowledged entries. -/
def kill : ReliableSession × List RetransmitEntry :=
  ({ s with state := .dead, retransmitQueue := [] }, s.retransmitQueue)

/-- Bit `i` of the bitmap says whether `base + i` was received. -/
def sackBitmap (base : ℕ) : Vector (BitVec 8) 32 :=
  (List.range 256).foldl
    (fun bitmap i => if s.dedup.isSeen (base + i) then WordBits.setBit bitmap i else bitmap)
    (Vector.replicate 32 0#8)

def buildAckPayload (hasGap : Bool) : ReliableSession × AckPayload :=
  let ackSeq := s.dedup.nextExpected - 1
  let bitmap := if hasGap then some ((s.sackBitmap (ackSeq + 1)).map UInt8.ofBitVec) else none
  ({ s with creditsToGrant := 0, framesSinceLastAck := 0 },
    ⟨UInt64.ofNat ackSeq, s.creditsToGrant, 0, bitmap⟩)

/-- The scan of the retransmit queue: updated queue, expired numbers, and
whether some entry exceeded its retries, where the scan stops. -/
def scanRto (now : Instant) (rtoBaseMs maxRetries : ℕ) :
    List RetransmitEntry → List RetransmitEntry × List ℕ × Bool
  | [] => ([], [], false)
  | entry :: rest =>
    if now ≥ entry.rtoDeadline then
      let retryCount := entry.retryCount + 1
      if retryCount > maxRetries then ({ entry with retryCount } :: rest, [], true)
      else
        let backoff := rtoBaseMs * 2 ^ min retryCount 10
        let (rest, seqs, shouldKill) := scanRto now rtoBaseMs maxRetries rest
        ({ entry with retryCount, rtoDeadline := now + fromMillis backoff } :: rest,
          entry.seq :: seqs, shouldKill)
    else
      let (rest, seqs, shouldKill) := scanRto now rtoBaseMs maxRetries rest
      (entry :: rest, seqs, shouldKill)

def checkRto (now : Instant) : ReliableSession × List ℕ :=
  if s.state ≠ .active then (s, [])
  else
    let (queue, timeoutSeqs, shouldKill) := scanRto now s.rtoBaseMs s.maxRetries s.retransmitQueue
    let s := { s with retransmitQueue := queue }
    if shouldKill then (s.kill.1, [])
    else (if timeoutSeqs = [] then s else s.onLoss, timeoutSeqs)

def getRetransmitEntry (seq : ℕ) : Option RetransmitEntry :=
  s.retransmitQueue.find? fun e => e.seq == seq

def shouldSendAck : Bool := decide (s.framesSinceLastAck ≥ 8) || decide (s.creditsToGrant ≥ 8)

/-- Enough credits for a CREDIT frame also make an acknowledgement due, so that the frame
never goes out. -/
theorem not_creditFrameDue : ¬(s.creditsToGrant ≥ 8 ∧ s.shouldSendAck = false) := by
  rintro ⟨hmany, hdue⟩
  simp [shouldSendAck, hmany] at hdue

/-! ## What receiving and acknowledging leave alone -/

variable (seq : ℕ)

theorem receiveFrame_eq :
    ∃ dedup, (s.receiveFrame seq).1 = { s with
      dedup
      framesSinceLastAck := s.framesSinceLastAck + 1
      creditsToGrant := s.creditsToGrant + 1 } := by
  unfold receiveFrame
  dsimp only
  split <;> exact ⟨_, rfl⟩

@[simp] theorem receiveFrame_state : (s.receiveFrame seq).1.state = s.state := by
  obtain ⟨dedup, heq⟩ := s.receiveFrame_eq seq
  rw [heq]

@[simp] theorem receiveFrame_executionRecords :
    (s.receiveFrame seq).1.executionRecords = s.executionRecords := by
  obtain ⟨dedup, heq⟩ := s.receiveFrame_eq seq
  rw [heq]

/-- Only a number seen for the first time inside the window is marked. -/
theorem receiveFrame_cases :
    (seq = s.dedup.nextExpected ∧ (s.receiveFrame seq).2 = .deliver ∧
        (s.receiveFrame seq).1.dedup = s.dedup.markAndAdvance seq) ∨
    (s.dedup.check seq = .alreadySeen ∧ (s.receiveFrame seq).2 = .duplicate ∧
        (s.receiveFrame seq).1.dedup = s.dedup) ∨
    (s.dedup.check seq = .outOfOrder ∧ (s.receiveFrame seq).2 = .outOfOrder ∧
        (s.receiveFrame seq).1.dedup = s.dedup.markAndAdvance seq) ∨
    (s.dedup.check seq = .beyondWindow ∧ (s.receiveFrame seq).2 = .beyondWindow ∧
        (s.receiveFrame seq).1.dedup = s.dedup) := by
  cases h : s.dedup.check seq with
  | inOrder => exact Or.inl ⟨(s.dedup.check_inOrder_iff seq).mp h, by simp [receiveFrame, h]⟩
  | alreadySeen => simp [receiveFrame, h]
  | outOfOrder => simp [receiveFrame, h]
  | beyondWindow => simp [receiveFrame, h]

/-- The window marks exactly the numbers that are fresh to it. -/
theorem receiveFrame_dedup :
    (s.receiveFrame seq).1.dedup =
      if s.dedup.Fresh seq then s.dedup.markAndAdvance seq else s.dedup := by
  cases h : s.dedup.check seq <;> simp [receiveFrame, DedupWindow.Fresh, h]

@[simp] theorem receiveFrame_windowSize :
    (s.receiveFrame seq).1.dedup.windowSize = s.dedup.windowSize := by
  obtain h | h | h | h := s.receiveFrame_cases seq <;> simp [h.2.2]

theorem nextExpected_le_receiveFrame :
    s.dedup.nextExpected ≤ (s.receiveFrame seq).1.dedup.nextExpected := by
  obtain h | h | h | h := s.receiveFrame_cases seq <;> rw [h.2.2]
  · exact s.dedup.nextExpected_le_markAndAdvance _
  · exact s.dedup.nextExpected_le_markAndAdvance _

theorem ackSeq_lt_nextExpected (hasGap : Bool) (h : 0 < s.dedup.nextExpected) :
    (s.buildAckPayload hasGap).2.ackSeq.toNat < s.dedup.nextExpected := by
  have hle : (s.buildAckPayload hasGap).2.ackSeq.toNat ≤ s.dedup.nextExpected - 1 := by
    simp only [buildAckPayload, UInt64.toNat_ofNat']
    exact Nat.mod_le _ _
  omega

end ReliableSession

/-! ## What sending, timeouts and acknowledgements leave alone -/

namespace ReliableSession

variable (s : ReliableSession) (now : Instant)

theorem sampleEntries_eq (entries : List RetransmitEntry) :
    ∃ srtt rttvar rto, entries.foldl (fun s entry => s.sampleEntry now entry) s =
      { s with srtt, rttvar, rto } := by
  induction entries generalizing s with
  | nil => exact ⟨s.srtt, s.rttvar, s.rto, rfl⟩
  | cons entry entries ih =>
    obtain ⟨srtt, rttvar, rto, hrest⟩ := ih (s.sampleEntry now entry)
    refine ⟨srtt, rttvar, rto, ?_⟩
    rw [List.foldl_cons, hrest]
    unfold sampleEntry
    dsimp only
    split_ifs <;> rfl

variable (ack : AckPayload)

/-- An acknowledgement takes its entries out of the queue and adds its credits. One with a
new number is sampled and counts for the window. -/
theorem processAck_cases :
    let keep := s.retransmitQueue.filter fun e => !ackedBy ack.ackSeq.toNat e
    let credited := { s.addCredits ack.creditGrant with retransmitQueue := keep }
    (ack.ackSeq.toNat ≤ s.lastAckSeq ∧ (s.processAck now ack).1 = credited) ∨
      (s.lastAckSeq < ack.ackSeq.toNat ∧ ∃ srtt rttvar rto,
        (s.processAck now ack).1 = { credited.onNewAck with srtt, rttvar, rto }) := by
  intro keep credited
  by_cases hnew : s.lastAckSeq < ack.ackSeq.toNat
  · obtain ⟨srtt, rttvar, rto, hsampled⟩ :=
      s.sampleEntries_eq now (s.retransmitQueue.filter (ackedBy ack.ackSeq.toNat))
    refine Or.inr ⟨hnew, srtt, rttvar, rto, ?_⟩
    simp only [processAck, gt_iff_lt, hnew, decide_true, if_true, hsampled]
    rfl
  · refine Or.inl ⟨Nat.not_lt.mp hnew, ?_⟩
    simp only [processAck, gt_iff_lt, hnew, decide_false, Bool.false_eq_true, if_false]
    rfl

@[simp] theorem processAck_nextSeq :
    (s.processAck now ack).1.nextSeq = s.nextSeq := by
  rcases s.processAck_cases now ack with ⟨-, heq⟩ | ⟨-, srtt, rttvar, rto, heq⟩
  · rw [heq]
    rfl
  · rw [heq]
    rfl

theorem toNat_addCredits (credits : UInt32) :
    (s.addCredits credits).availableCredits.toNat =
      min (s.availableCredits.toNat + credits.toNat) 0xFFFFFFFF := by
  rw [addCredits, UInt32.toNat_ofNat']
  exact Nat.mod_eq_of_lt (by omega)

theorem toNat_processAck :
    (s.processAck now ack).1.availableCredits.toNat =
      min (s.availableCredits.toNat + ack.creditGrant.toNat) 0xFFFFFFFF := by
  rw [← s.toNat_addCredits]
  rcases s.processAck_cases now ack with ⟨-, heq⟩ | ⟨-, srtt, rttvar, rto, heq⟩
  · rw [heq]
  · rw [heq]
    rfl

theorem processAckForFastRetransmit_eq :
    ∃ lastAckSeq dupAckCount, (s.processAckForFastRetransmit ack).1 =
      { s with lastAckSeq, dupAckCount } := by
  unfold processAckForFastRetransmit
  dsimp only
  split_ifs <;> exact ⟨_, _, rfl⟩

@[simp] theorem processAckForFastRetransmit_nextSeq :
    (s.processAckForFastRetransmit ack).1.nextSeq = s.nextSeq := by
  obtain ⟨lastAckSeq, dupAckCount, heq⟩ := s.processAckForFastRetransmit_eq ack
  rw [heq]

@[simp] theorem processAckForFastRetransmit_availableCredits :
    (s.processAckForFastRetransmit ack).1.availableCredits = s.availableCredits := by
  obtain ⟨lastAckSeq, dupAckCount, heq⟩ := s.processAckForFastRetransmit_eq ack
  rw [heq]

@[simp] theorem processAckForFastRetransmit_retransmitQueue :
    (s.processAckForFastRetransmit ack).1.retransmitQueue = s.retransmitQueue := by
  obtain ⟨lastAckSeq, dupAckCount, heq⟩ := s.processAckForFastRetransmit_eq ack
  rw [heq]

/-- The timeout check of an active session kills it, finds nothing to do, or takes the
expired numbers for a loss. -/
theorem checkRto_cases :
    let scanned := scanRto now s.rtoBaseMs s.maxRetries s.retransmitQueue
    (s.state ≠ .active ∧ s.checkRto now = (s, [])) ∨
      (s.state = .active ∧ scanned.2.2 = true ∧
        s.checkRto now = ({ s with state := .dead, retransmitQueue := [] }, [])) ∨
      (s.state = .active ∧ scanned.2.2 = false ∧ scanned.2.1 = [] ∧
        s.checkRto now = ({ s with retransmitQueue := scanned.1 }, [])) ∨
      (s.state = .active ∧ scanned.2.2 = false ∧ scanned.2.1 ≠ [] ∧
        s.checkRto now = ({ s with retransmitQueue := scanned.1 }.onLoss, scanned.2.1)) := by
  intro scanned
  by_cases hactive : s.state = .active
  · have hcheck : s.checkRto now =
        if scanned.2.2 then ({ s with state := .dead, retransmitQueue := [] }, [])
        else (if scanned.2.1 = [] then { s with retransmitQueue := scanned.1 }
          else { s with retransmitQueue := scanned.1 }.onLoss, scanned.2.1) :=
      if_neg (not_ne_iff.mpr hactive)
    rw [hcheck]
    cases hkill : scanned.2.2 with
    | true => exact Or.inr (Or.inl ⟨hactive, rfl, rfl⟩)
    | false =>
      rw [if_neg Bool.false_ne_true]
      by_cases hnone : scanned.2.1 = []
      · rw [if_pos hnone, hnone]
        exact Or.inr (Or.inr (Or.inl ⟨hactive, rfl, rfl, rfl⟩))
      · rw [if_neg hnone]
        exact Or.inr (Or.inr (Or.inr ⟨hactive, rfl, hnone, rfl⟩))
  · exact Or.inl ⟨hactive, if_pos hactive⟩

theorem checkRto_eq :
    ∃ state retransmitQueue ssthresh cwnd dupAckCount, (s.checkRto now).1 =
      { s with state, retransmitQueue, ssthresh, cwnd, dupAckCount } := by
  rcases s.checkRto_cases now with ⟨-, heq⟩ | ⟨-, -, heq⟩ | ⟨-, -, -, heq⟩ | ⟨-, -, -, heq⟩
  all_goals rw [heq]
  all_goals exact ⟨_, _, _, _, _, rfl⟩

@[simp] theorem checkRto_nextSeq : (s.checkRto now).1.nextSeq = s.nextSeq := by
  obtain ⟨_, _, _, _, _, heq⟩ := s.checkRto_eq now
  rw [heq]

@[simp] theorem checkRto_availableCredits :
    (s.checkRto now).1.availableCredits = s.availableCredits := by
  obtain ⟨_, _, _, _, _, heq⟩ := s.checkRto_eq now
  rw [heq]

theorem consumeCredit_ok {s s' : ReliableSession} (h : s.consumeCredit = .ok s') :
    s.availableCredits ≠ 0 ∧ s' = { s with availableCredits := s.availableCredits - 1 } := by
  unfold consumeCredit at h
  split_ifs at h with hzero
  cases h
  exact ⟨hzero, rfl⟩

theorem toNat_consumeCredit {s s' : ReliableSession} (h : s.consumeCredit = .ok s') :
    s'.availableCredits.toNat + 1 = s.availableCredits.toNat := by
  obtain ⟨hzero, rfl⟩ := consumeCredit_ok h
  have hone : (1 : UInt32) ≤ s.availableCredits := by
    rw [UInt32.le_iff_toNat_le]
    have hne : s.availableCredits.toNat ≠ 0 := fun h0 => hzero (UInt32.toNat_inj.mp h0)
    exact Nat.one_le_iff_ne_zero.mpr hne
  rw [UInt32.toNat_sub_of_le _ _ hone]
  exact Nat.sub_add_cancel hone

@[simp] theorem receiveFrame_creditsToGrant (seq : ℕ) :
    (s.receiveFrame seq).1.creditsToGrant = s.creditsToGrant + 1 := by
  obtain ⟨dedup, heq⟩ := s.receiveFrame_eq seq
  rw [heq]

@[simp] theorem receiveFrame_framesSinceLastAck (seq : ℕ) :
    (s.receiveFrame seq).1.framesSinceLastAck = s.framesSinceLastAck + 1 := by
  obtain ⟨dedup, heq⟩ := s.receiveFrame_eq seq
  rw [heq]

@[simp] theorem receiveFrame_key (seq : ℕ) : (s.receiveFrame seq).1.key = s.key := by
  obtain ⟨dedup, heq⟩ := s.receiveFrame_eq seq
  rw [heq]

@[simp] theorem receiveFrame_retransmitQueue (seq : ℕ) :
    (s.receiveFrame seq).1.retransmitQueue = s.retransmitQueue := by
  obtain ⟨dedup, heq⟩ := s.receiveFrame_eq seq
  rw [heq]

end ReliableSession

/-! ## The retransmit queue -/

/-- A numbered frame, as it is sent and sent again. -/
structure Packet where
  seq : ℕ
  frame : List UInt8
  deriving DecidableEq, Repr

def RetransmitEntry.packet (entry : RetransmitEntry) : Packet := ⟨entry.seq, entry.frame⟩

namespace ReliableSession

variable (s : ReliableSession)

/-- The packets a session would send again. -/
def packets : List Packet := s.retransmitQueue.map RetransmitEntry.packet

variable (now : Instant)

theorem assignSeq_packets (frame : List UInt8) (isFireAndForget : Bool) (opaqueId : UInt64) :
    let assigned := s.assignSeq now frame isFireAndForget opaqueId
    assigned.1.packets = s.packets ++ [⟨assigned.2.2, assigned.2.1⟩] := by
  simp [packets, assignSeq, RetransmitEntry.packet]

theorem processAck_retransmitQueue (ack : AckPayload) :
    (s.processAck now ack).1.retransmitQueue =
      s.retransmitQueue.filter fun e => !ackedBy ack.ackSeq.toNat e := by
  rcases s.processAck_cases now ack with ⟨-, heq⟩ | ⟨-, srtt, rttvar, rto, heq⟩
  · rw [heq]
  · rw [heq]
    rfl

theorem mem_packets_processAck (ack : AckPayload) {p : Packet} (hp : p ∈ s.packets) :
    p ∈ (s.processAck now ack).1.packets ∨ p.seq ≤ ack.ackSeq.toNat := by
  obtain ⟨entry, hentry, rfl⟩ := List.mem_map.mp hp
  by_cases hacked : ackedBy ack.ackSeq.toNat entry = true
  · right
    exact of_decide_eq_true (Bool.and_eq_true_iff.mp hacked).1
  · left
    rw [packets, processAck_retransmitQueue]
    exact List.mem_map.mpr ⟨entry, List.mem_filter.mpr ⟨hentry, by simp [hacked]⟩, rfl⟩

theorem scanRto_packets (rtoBaseMs maxRetries : ℕ) (queue : List RetransmitEntry) :
    (scanRto now rtoBaseMs maxRetries queue).1.map RetransmitEntry.packet =
      queue.map RetransmitEntry.packet := by
  induction queue with
  | nil => rfl
  | cons entry rest ih =>
    unfold scanRto
    dsimp only
    split_ifs
    · rfl
    · simpa [RetransmitEntry.packet] using ih
    · simpa [RetransmitEntry.packet] using ih

/-- A timeout check that does not kill the session. -/
def Survives (now : Instant) : Prop := (s.checkRto now).1.state = s.state

instance (now : Instant) : Decidable (s.Survives now) := inferInstanceAs (Decidable (_ = _))

theorem Survives.packets {s : ReliableSession} {now : Instant} (h : s.Survives now) :
    (s.checkRto now).1.packets = s.packets := by
  have hsame : (s.checkRto now).1.state = s.state := h
  rcases s.checkRto_cases now with
    ⟨-, heq⟩ | ⟨hactive, -, heq⟩ | ⟨-, -, -, heq⟩ | ⟨-, -, -, heq⟩
  · rw [heq]
  · rw [heq, hactive] at hsame
    cases hsame
  · rw [heq]
    exact scanRto_packets _ _ _ _
  · rw [heq]
    exact scanRto_packets _ _ _ _

theorem packets_checkRto_sublist :
    (s.checkRto now).1.packets.Sublist s.packets := by
  have hscanned := scanRto_packets now s.rtoBaseMs s.maxRetries s.retransmitQueue
  rcases s.checkRto_cases now with ⟨-, heq⟩ | ⟨-, -, heq⟩ | ⟨-, -, -, heq⟩ | ⟨-, -, -, heq⟩
  · rw [heq]
  · rw [heq]
    exact List.nil_sublist _
  · rw [heq, packets, hscanned, packets]
  · rw [heq, packets, onLoss, hscanned, packets]

theorem mem_packets_of_checkRto {now : Instant} {p : Packet}
    (h : p ∈ (s.checkRto now).1.packets) : p ∈ s.packets :=
  (s.packets_checkRto_sublist now).subset h

theorem mem_packets_of_processAck {now : Instant} {ack : AckPayload} {p : Packet}
    (h : p ∈ (s.processAck now ack).1.packets) : p ∈ s.packets := by
  rw [packets, processAck_retransmitQueue] at h
  obtain ⟨entry, hentry, rfl⟩ := List.mem_map.mp h
  exact List.mem_map.mpr ⟨entry, List.mem_of_mem_filter hentry, rfl⟩

@[simp] theorem processAckForFastRetransmit_packets (ack : AckPayload) :
    (s.processAckForFastRetransmit ack).1.packets = s.packets := by
  rw [packets, processAckForFastRetransmit_retransmitQueue]
  rfl

theorem packet_mem_of_getRetransmitEntry {seq : ℕ} {entry : RetransmitEntry}
    (h : s.getRetransmitEntry seq = some entry) : entry.packet ∈ s.packets :=
  List.mem_map.mpr ⟨entry, List.mem_of_find?_eq_some h, rfl⟩

end ReliableSession
end UniBus.Transport
