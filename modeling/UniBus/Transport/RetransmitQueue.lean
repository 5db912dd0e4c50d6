import UniBus.Foundations.Runs
import UniBus.Transport.Patching

/-!
# The retransmit queue of a session

Runs of the calls on the send side of a session, in any order. Only `assign_seq` adds an
entry, at the end of the queue and under the next number; every other call keeps a part of
the queue in order. So the queue is sorted by numbers that have been given out, and the
stored frames are the numbered ones.
-/
namespace UniBus.Transport

open Wire

/-- A call on the send side of a session. -/
inductive SenderCall
  | assignSeq (now : Instant) (frame : List UInt8) (isFireAndForget : Bool) (opaqueId : UInt64)
  | processAck (now : Instant) (ack : AckPayload)
  | processAckForFastRetransmit (ack : AckPayload)
  | completeRequest (opaqueId : UInt64)
  | onNewAck
  | onLoss
  | checkRto (now : Instant)
  | kill

/-- What a call returns to its caller. -/
inductive SenderEvent
  | assigned (seq : ℕ)
  /-- The number was returned by `check_rto`. -/
  | expired (seq : ℕ)
  /-- The ACK was passed to the duplicate count, with the frame it asks to resend. -/
  | counted (ackSeq : ℕ) (retransmitSeq : Option ℕ)
  deriving DecidableEq, Repr

namespace SenderCall

def isAssignSeq : SenderCall → Bool
  | assignSeq _ _ _ _ => true
  | _ => false

/-- A frame to be numbered is at least a header long. -/
def Framed : SenderCall → Prop
  | assignSeq _ frame _ _ => 32 ≤ frame.length
  | _ => True

end SenderCall

namespace ReliableSession

variable (s : ReliableSession)

def call : SenderCall → ReliableSession × List SenderEvent
  | .assignSeq now frame isFireAndForget opaqueId =>
    let (s, _, seq) := s.assignSeq now frame isFireAndForget opaqueId
    (s, [.assigned seq])
  | .processAck now ack => ((s.processAck now ack).1, [])
  | .processAckForFastRetransmit ack =>
    let (s, retransmitSeq) := s.processAckForFastRetransmit ack
    (s, [.counted ack.ackSeq.toNat retransmitSeq])
  | .completeRequest opaqueId => (s.completeRequest opaqueId, [])
  | .onNewAck => (s.onNewAck, [])
  | .onLoss => (s.onLoss, [])
  | .checkRto now =>
    let (s, timeoutSeqs) := s.checkRto now
    (s, timeoutSeqs.map .expired)
  | .kill => (s.kill.1, [])

theorem call_processAckForFastRetransmit (ack : AckPayload) :
    s.call (.processAckForFastRetransmit ack) =
      ((s.processAckForFastRetransmit ack).1,
        [.counted ack.ackSeq.toNat (s.processAckForFastRetransmit ack).2]) := rfl

theorem call_checkRto (now : Instant) :
    s.call (.checkRto now) =
      ((s.checkRto now).1, (s.checkRto now).2.map SenderEvent.expired) := rfl

/-! ## The loop of `process_ack` -/

/-- Entries are popped from the front of the queue and pushed to one of two lists. -/
def drainQueue (now : Instant) (ackSeq : ℕ) (isNewAck : Bool) :
    List RetransmitEntry → ReliableSession → List RetransmitEntry → List RetransmitEntry →
      ReliableSession × List RetransmitEntry × List RetransmitEntry
  | [], s, removed, keep => (s, removed, keep)
  | entry :: queue, s, removed, keep =>
    if entry.seq ≤ ackSeq ∧ entry.isFireAndForget = true then
      let s := if isNewAck then s.sampleEntry now entry else s
      drainQueue now ackSeq isNewAck queue s (removed ++ [entry]) keep
    else drainQueue now ackSeq isNewAck queue s removed (keep ++ [entry])

theorem drainQueue_eq (now : Instant) (ackSeq : ℕ) (isNewAck : Bool)
    (queue : List RetransmitEntry) (s : ReliableSession) (removed keep : List RetransmitEntry) :
    drainQueue now ackSeq isNewAck queue s removed keep =
      (if isNewAck then
          (queue.filter (ackedBy ackSeq)).foldl (fun s entry => s.sampleEntry now entry) s else s,
        removed ++ queue.filter (ackedBy ackSeq),
        keep ++ queue.filter fun e => !ackedBy ackSeq e) := by
  induction queue generalizing s removed keep with
  | nil => cases isNewAck <;> simp [drainQueue]
  | cons entry queue ih =>
    have hacked : ackedBy ackSeq entry = true ↔
        entry.seq ≤ ackSeq ∧ entry.isFireAndForget = true := by
      simp [ackedBy]
    rw [drainQueue]
    by_cases h : ackedBy ackSeq entry = true
    · rw [if_pos (hacked.mp h), ih]
      cases isNewAck <;> simp [h]
    · rw [if_neg (mt hacked.mpr h), ih]
      simp [h]

/-- The two filters of `processAck` are the lists that the loop builds. -/
theorem processAck_eq_drainQueue (now : Instant) (ack : AckPayload) :
    s.processAck now ack =
      let isNewAck := decide (ack.ackSeq.toNat > s.lastAckSeq)
      let (sampled, removed, keep) :=
        drainQueue now ack.ackSeq.toNat isNewAck s.retransmitQueue s [] []
      let credited := { sampled with retransmitQueue := keep }.addCredits ack.creditGrant
      (if isNewAck then credited.onNewAck else credited, removed) := by
  simp only [drainQueue_eq, List.nil_append]
  rfl

/-! ## Entries in the order of their numbers -/

/-- The queue is sorted by numbers, and all of them have been given out. -/
structure InSequence : Prop where
  increasing : (s.packets.map Packet.seq).Pairwise (· < ·)
  below : ∀ p ∈ s.packets, p.seq < s.nextSeq

theorem packets_call_sublist {c : SenderCall} (h : c.isAssignSeq = false) :
    (s.call c).1.packets.Sublist s.packets ∧ (s.call c).1.nextSeq = s.nextSeq := by
  cases c with
  | assignSeq => cases h
  | processAck now ack =>
    refine ⟨?_, s.processAck_nextSeq now ack⟩
    rw [call, packets, processAck_retransmitQueue]
    exact List.filter_sublist.map _
  | processAckForFastRetransmit ack =>
    refine ⟨?_, s.processAckForFastRetransmit_nextSeq ack⟩
    rw [call_processAckForFastRetransmit, processAckForFastRetransmit_packets]
  | completeRequest opaqueId => exact ⟨List.eraseP_sublist.map _, rfl⟩
  | onNewAck => exact ⟨List.Sublist.refl _, rfl⟩
  | onLoss => exact ⟨List.Sublist.refl _, rfl⟩
  | checkRto now => exact ⟨s.packets_checkRto_sublist now, s.checkRto_nextSeq now⟩
  | kill => exact ⟨List.nil_sublist _, rfl⟩

theorem nextSeq_call (c : SenderCall) :
    (s.call c).1.nextSeq = s.nextSeq + if c.isAssignSeq then 1 else 0 := by
  cases c with
  | assignSeq => rfl
  | _ => exact (s.packets_call_sublist rfl).2

/-- Every call keeps a part of the queue, or adds a numbered frame at its end. -/
theorem packets_call (c : SenderCall) :
    ((s.call c).1.packets.Sublist s.packets ∧ (s.call c).1.nextSeq = s.nextSeq) ∨
      ∃ frame, (c.Framed → 32 ≤ frame.length) ∧
        (s.call c).1.packets = s.packets ++ [⟨s.nextSeq, patchAckReq (patchSeq frame s.nextSeq)⟩] ∧
        (s.call c).1.nextSeq = s.nextSeq + 1 := by
  cases c with
  | assignSeq now frame isFireAndForget opaqueId =>
    exact Or.inr ⟨frame, id, s.assignSeq_packets now frame isFireAndForget opaqueId, rfl⟩
  | _ => exact Or.inl (s.packets_call_sublist rfl)

theorem nextSeq_run (calls : List SenderCall) :
    (Runs.run call s calls).1.nextSeq = s.nextSeq + calls.countP SenderCall.isAssignSeq := by
  induction calls generalizing s with
  | nil => rfl
  | cons c calls ih =>
    rw [Runs.run_cons, ih, nextSeq_call, List.countP_cons]
    omega

variable {s}

theorem inSequence_new (localNode remoteNode : UInt16) (epoch : UInt32)
    (rtoBaseMs maxRetries : ℕ) (initialCredits : UInt32) :
    (new localNode remoteNode epoch rtoBaseMs maxRetries initialCredits).InSequence :=
  ⟨List.Pairwise.nil, fun _ hp => absurd hp List.not_mem_nil⟩

theorem InSequence.call (h : s.InSequence) (c : SenderCall) : (s.call c).1.InSequence := by
  rcases s.packets_call c with ⟨hsublist, hnext⟩ | ⟨frame, -, hpackets, hnext⟩
  · refine ⟨h.increasing.sublist (hsublist.map _), ?_⟩
    intro p hp
    rw [hnext]
    exact h.below p (hsublist.subset hp)
  · constructor
    · rw [hpackets, List.map_append, List.pairwise_append]
      refine ⟨h.increasing, List.pairwise_singleton _ _, ?_⟩
      intro seq hseq seq' hseq'
      obtain ⟨p, hp, rfl⟩ := List.mem_map.mp hseq
      rw [List.mem_singleton.mp hseq']
      exact h.below p hp
    · intro p hp
      rw [hnext]
      rcases List.mem_append.mp (hpackets ▸ hp) with hold | hnew
      · exact (h.below p hold).trans (Nat.lt_succ_self _)
      · rw [List.mem_singleton.mp hnew]
        exact Nat.lt_succ_self _

/-! ## What the stored frames carry -/

def streamSeqAt (frame : List UInt8) : ℕ := BigEndian.get (Bytes.slice frame 16 8)

def flagsAt (frame : List UInt8) : FrameFlags :=
  ⟨UInt16.ofNat (BigEndian.get (Bytes.slice frame 6 2))⟩

/-- The frame carries its number and asks to be acknowledged. -/
def Carried (p : Packet) : Prop :=
  streamSeqAt p.frame = p.seq % 2 ^ 64 ∧ (flagsAt p.frame).contains .ackReq = true

theorem carried_patch {frame : List UInt8} (h : 32 ≤ frame.length) (seq : ℕ) :
    Carried ⟨seq, patchAckReq (patchSeq frame seq)⟩ := by
  obtain ⟨r, rest, rfl⟩ := exists_rawHeader h
  rw [r.patch_bytes]
  refine ⟨(RawHeader.streamSeq_at _ rest).trans UInt64.toNat_ofNat', ?_⟩
  rw [flagsAt, RawHeader.flags_at]
  exact FrameFlags.contains_union_right ⟨r.flags⟩ .ackReq

/-- Frames are patched when they are queued and not changed afterwards. -/
theorem carried_call (h : ∀ p ∈ s.packets, Carried p) {c : SenderCall} (hframed : c.Framed) :
    ∀ p ∈ (s.call c).1.packets, Carried p := by
  intro p hp
  rcases s.packets_call c with ⟨hsublist, -⟩ | ⟨frame, hlength, hpackets, -⟩
  · exact h p (hsublist.subset hp)
  · rcases List.mem_append.mp (hpackets ▸ hp) with hold | hnew
    · exact h p hold
    · rw [List.mem_singleton.mp hnew]
      exact carried_patch (hlength hframed) s.nextSeq

/-! ## The queue in every reachable state -/

/-- The numbers in the queue increase and have been given out, and each stored frame
carries its own and the ACK_REQ flag. -/
structure QueueOrdered (s : ReliableSession) : Prop where
  increasing : (s.retransmitQueue.map RetransmitEntry.seq).Pairwise (· < ·)
  below : ∀ entry ∈ s.retransmitQueue, entry.seq < s.nextSeq
  carries_seq : ∀ entry ∈ s.retransmitQueue, streamSeqAt entry.frame = entry.seq
  carries_flag : ∀ entry ∈ s.retransmitQueue, (flagsAt entry.frame).contains .ackReq = true

/-- An acknowledgement removes and returns exactly the fire-and-forget entries it covers;
the others stay. Both lists are in the order of the queue. -/
structure AckSplits (s : ReliableSession) (now : Instant) (ack : AckPayload) : Prop where
  removed : (s.processAck now ack).2 = s.retransmitQueue.filter fun entry =>
    entry.isFireAndForget ∧ entry.seq ≤ ack.ackSeq.toNat
  kept : (s.processAck now ack).1.retransmitQueue = s.retransmitQueue.filter fun entry =>
    ¬ (entry.isFireAndForget ∧ entry.seq ≤ ack.ackSeq.toNat)

def IsRequest (opaqueId : UInt64) (entry : RetransmitEntry) : Prop :=
  entry.opaqueId = opaqueId ∧ entry.isFireAndForget = false

/-- A completed request leaves the queue: the first entry with the identifier, if there is
one, and no other entry. -/
def CompletesFirst (s : ReliableSession) (opaqueId : UInt64) : Prop :=
  ((∀ entry ∈ s.retransmitQueue, ¬ IsRequest opaqueId entry) ∧
      (s.completeRequest opaqueId).retransmitQueue = s.retransmitQueue) ∨
    ∃ before entry after, s.retransmitQueue = before ++ entry :: after ∧
      (∀ earlier ∈ before, ¬ IsRequest opaqueId earlier) ∧ IsRequest opaqueId entry ∧
      (s.completeRequest opaqueId).retransmitQueue = before ++ after

theorem ackSplits (s : ReliableSession) (now : Instant) (ack : AckPayload) :
    s.AckSplits now ack := by
  have hacked : ∀ entry, ackedBy ack.ackSeq.toNat entry =
      decide (entry.isFireAndForget ∧ entry.seq ≤ ack.ackSeq.toNat) := by
    intro entry
    simp [ackedBy, Bool.and_comm]
  constructor
  · apply List.filter_congr
    intro entry _
    exact hacked entry
  · rw [processAck_retransmitQueue]
    apply List.filter_congr
    intro entry _
    rw [hacked, decide_not]

theorem completesFirst (s : ReliableSession) (opaqueId : UInt64) : s.CompletesFirst opaqueId := by
  let found (entry : RetransmitEntry) : Bool :=
    entry.opaqueId == opaqueId && !entry.isFireAndForget
  have hfound : ∀ entry, found entry = true ↔ IsRequest opaqueId entry := by
    simp [found, IsRequest]
  by_cases h : ∃ entry ∈ s.retransmitQueue, IsRequest opaqueId entry
  · obtain ⟨entry, hmem, hrequest⟩ := h
    obtain ⟨first, before, after, hbefore, hfirst, hqueue, herase⟩ :=
      List.exists_of_eraseP hmem ((hfound entry).mpr hrequest)
    refine Or.inr ⟨before, first, after, hqueue, ?_, (hfound first).mp hfirst, herase⟩
    intro earlier hearlier
    rw [← hfound]
    exact hbefore earlier hearlier
  · have hnone : ∀ entry ∈ s.retransmitQueue, ¬ IsRequest opaqueId entry :=
      fun entry hmem hrequest => h ⟨entry, hmem, hrequest⟩
    refine Or.inl ⟨hnone, List.eraseP_of_forall_not ?_⟩
    intro entry hmem
    rw [hfound]
    exact hnone entry hmem

/-- The numbers that fit their field are carried as they are. -/
theorem queueOrdered_of_inSequence (h : s.InSequence) (hcarried : ∀ p ∈ s.packets, Carried p)
    (hnext : s.nextSeq ≤ 2 ^ 64) : s.QueueOrdered := by
  have hpacket : ∀ entry ∈ s.retransmitQueue, entry.packet ∈ s.packets :=
    fun entry hmem => List.mem_map_of_mem hmem
  constructor
  · have hincreasing := h.increasing
    rw [packets, List.map_map] at hincreasing
    exact hincreasing
  · intro entry hmem
    exact h.below _ (hpacket entry hmem)
  · intro entry hmem
    have hlt : entry.seq < 2 ^ 64 := (h.below _ (hpacket entry hmem)).trans_le hnext
    exact (hcarried _ (hpacket entry hmem)).1.trans (Nat.mod_eq_of_lt hlt)
  · intro entry hmem
    exact (hcarried _ (hpacket entry hmem)).2

/-- In every state that calls lead to, the queue is in order and acknowledgements and
completed requests take from it what they name. -/
theorem retransmit_queue_ordered (localNode remoteNode : UInt16) (epoch : UInt32)
    (rtoBaseMs maxRetries : ℕ) (initialCredits : UInt32) {calls : List SenderCall}
    (hframed : ∀ c ∈ calls, c.Framed)
    (hcount : calls.countP SenderCall.isAssignSeq < 2 ^ 64 - 1) :
    let s := (Runs.run call
      (new localNode remoteNode epoch rtoBaseMs maxRetries initialCredits) calls).1
    s.QueueOrdered ∧ (∀ now ack, s.AckSplits now ack) ∧ ∀ opaqueId, s.CompletesFirst opaqueId := by
  intro s
  have hmeets : Runs.Meets call (fun _ _ c => c.Framed)
      (new localNode remoteNode epoch rtoBaseMs maxRetries initialCredits) [] calls :=
    Runs.meets_of_forall_mem hframed
  have hqueue : s.InSequence ∧ ∀ p ∈ s.packets, Carried p :=
    Runs.run_invariant
      (I := fun (s : ReliableSession) _ => s.InSequence ∧ ∀ p ∈ s.packets, Carried p)
      (fun _ _ c h hc => ⟨h.1.call c, carried_call h.2 hc⟩)
      ⟨inSequence_new _ _ _ _ _ _, fun _ hp => absurd hp List.not_mem_nil⟩ hmeets
  have hnext : s.nextSeq = 1 + calls.countP SenderCall.isAssignSeq := nextSeq_run _ calls
  refine ⟨queueOrdered_of_inSequence hqueue.1 hqueue.2 ?_, s.ackSplits, s.completesFirst⟩
  omega

theorem retransmit_queue_ordered_acked :
    let calls : List SenderCall :=
      [.assignSeq 0 (List.replicate 32 0) true 0, .assignSeq 1 (List.replicate 40 7) false 9,
        .checkRto 1000000000, .processAck 2000000000 ⟨2, 1, 0, none⟩]
    let s := (Runs.run call (new 1 2 5 200 8 4) calls).1
    s.retransmitQueue.map RetransmitEntry.seq = [2] ∧ s.QueueOrdered ∧
      (∀ now ack, s.AckSplits now ack) ∧ ∀ opaqueId, s.CompletesFirst opaqueId := by
  intro calls s
  refine ⟨by decide, retransmit_queue_ordered 1 2 5 200 8 4 ?_ (by decide)⟩
  intro c hc
  simp only [calls, List.mem_cons, List.not_mem_nil, or_false] at hc
  rcases hc with rfl | rfl | rfl | rfl
  · exact le_refl 32
  · exact (by decide : 32 ≤ 40)
  · trivial
  · trivial

end ReliableSession
end UniBus.Transport
