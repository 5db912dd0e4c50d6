import UniBus.Foundations.Network
import UniBus.Foundations.Runs
import UniBus.Transport.Session

/-!
# Two sessions and the network between them

A sending session, a receiving session, and the DATA and ACK frames in flight.
The network may lose, copy and reorder both kinds of frames. The sender numbers
frames, processes acknowledgements and resends on a timeout; the receiver takes
frames and acknowledges whenever it likes.
-/
namespace UniBus.Transport

open Wire Network

structure Link where
  sender : ReliableSession
  receiver : ReliableSession
  data : Multiset Packet
  acks : Multiset AckPayload

/-- A frame that was given a number. -/
structure Assigned where
  packet : Packet
  isFireAndForget : Bool
  deriving DecidableEq, Repr

namespace Link

def start (sender receiver : ReliableSession) : Link := ⟨sender, receiver, 0, 0⟩

variable (l : Link)

/-- `assign_seq`, with the numbered frame put on the wire. -/
def assignSeq (now : Instant) (frame : List UInt8) (isFireAndForget : Bool)
    (opaqueId : UInt64) : Link × List Assigned :=
  let (sender, frame, seq) := l.sender.assignSeq now frame isFireAndForget opaqueId
  ({ l with sender, data := ⟨seq, frame⟩ ::ₘ l.data }, [⟨⟨seq, frame⟩, isFireAndForget⟩])

/-- `check_rto`, with the expired frames put on the wire again. -/
def checkRto (now : Instant) : Link :=
  let (sender, seqs) := l.sender.checkRto now
  let resent := seqs.filterMap fun seq => (sender.getRetransmitEntry seq).map (·.packet)
  { l with sender, data := ↑resent + l.data }

/-- A DATA frame in flight reaches `receive_frame`. -/
def receiveFrame (p : Packet) : Link :=
  if p ∈ l.data then
    { l with receiver := (l.receiver.receiveFrame p.seq).1, data := l.data.erase p }
  else l

/-- `build_ack_payload`, with the acknowledgement put on the wire. -/
def buildAckPayload (hasGap : Bool) : Link :=
  let (receiver, ack) := l.receiver.buildAckPayload hasGap
  { l with receiver, acks := ack ::ₘ l.acks }

/-- An ACK in flight reaches `process_ack`. -/
def processAck (now : Instant) (ack : AckPayload) : Link :=
  if ack ∈ l.acks then
    { l with sender := (l.sender.processAck now ack).1, acks := l.acks.erase ack }
  else l

inductive Input
  | assignSeq (now : Instant) (frame : List UInt8) (isFireAndForget : Bool) (opaqueId : UInt64)
  | checkRto (now : Instant)
  | receiveFrame (p : Packet)
  | buildAckPayload (hasGap : Bool)
  | processAck (now : Instant) (ack : AckPayload)
  | dataFault (f : Fault Packet)
  | ackFault (f : Fault AckPayload)

def step : Input → Link × List Assigned
  | .assignSeq now frame isFireAndForget opaqueId =>
    l.assignSeq now frame isFireAndForget opaqueId
  | .checkRto now => (l.checkRto now, [])
  | .receiveFrame p => (l.receiveFrame p, [])
  | .buildAckPayload hasGap => (l.buildAckPayload hasGap, [])
  | .processAck now ack => (l.processAck now ack, [])
  | .dataFault f => ({ l with data := f.apply l.data }, [])
  | .ackFault f => ({ l with acks := f.apply l.acks }, [])

/-- No timeout check kills the sending session. -/
def Survives (l : Link) (_ : List Assigned) : Input → Prop
  | .checkRto now => l.sender.Survives now
  | _ => True

/-- What the receiver has not seen, the sender can still resend. -/
structure Retains (l : Link) (log : List Assigned) : Prop where
  next_pos : 0 < l.receiver.dedup.nextExpected
  acks : ∀ ack ∈ l.acks, ack.ackSeq.toNat < l.receiver.dedup.nextExpected
  unseen : ∀ a ∈ log, a.isFireAndForget = true →
    a.packet ∈ l.sender.packets ∨ a.packet.seq < l.receiver.dedup.nextExpected

namespace Retains

variable {l : Link} {log : List Assigned}

section
variable (h : l.Retains log)
include h

theorem mono {l' : Link} (hnext : l.receiver.dedup.nextExpected ≤ l'.receiver.dedup.nextExpected)
    (hacks : ∀ ack ∈ l'.acks, ack ∈ l.acks) (hpackets : ∀ p ∈ l.sender.packets,
      p ∈ l'.sender.packets ∨ p.seq < l'.receiver.dedup.nextExpected) :
    l'.Retains log := by
  constructor
  · exact h.next_pos.trans_le hnext
  · intro ack hack
    exact (h.acks ack (hacks ack hack)).trans_le hnext
  · intro a ha hff
    rcases h.unseen a ha hff with hqueued | hseen
    · exact hpackets _ hqueued
    · exact Or.inr (hseen.trans_le hnext)

theorem assignSeq (now : Instant) (frame : List UInt8) (isFireAndForget : Bool)
    (opaqueId : UInt64) :
    (l.assignSeq now frame isFireAndForget opaqueId).1.Retains
      (log ++ (l.assignSeq now frame isFireAndForget opaqueId).2) := by
  have hpackets := l.sender.assignSeq_packets now frame isFireAndForget opaqueId
  refine ⟨h.next_pos, h.acks, ?_⟩
  intro a ha hff
  rcases List.mem_append.mp ha with hold | hnew
  · rcases h.unseen a hold hff with hqueued | hseen
    · exact Or.inl (hpackets ▸ List.mem_append_left _ hqueued)
    · exact Or.inr hseen
  · rw [List.mem_singleton.mp hnew]
    exact Or.inl (hpackets ▸ List.mem_append_right _ (List.mem_singleton.mpr rfl))

theorem checkRto {now : Instant} (hsurvives : l.sender.Survives now) :
    (l.checkRto now).Retains log := by
  apply h.mono
  · exact le_rfl
  · exact fun _ hack => hack
  · intro p hp
    rw [← hsurvives.packets] at hp
    exact Or.inl hp

theorem receiveFrame (p : Packet) : (l.receiveFrame p).Retains log := by
  unfold Link.receiveFrame
  split_ifs
  · exact h.mono (l.receiver.nextExpected_le_receiveFrame p.seq) (fun _ hack => hack)
      (fun _ hp => Or.inl hp)
  · exact h

theorem buildAckPayload (hasGap : Bool) :
    (l.buildAckPayload hasGap).Retains log := by
  refine ⟨h.next_pos, ?_, h.unseen⟩
  intro ack hack
  rcases Multiset.mem_cons.mp hack with rfl | hold
  · exact l.receiver.ackSeq_lt_nextExpected hasGap h.next_pos
  · exact h.acks ack hold

theorem processAck (now : Instant) (ack : AckPayload) :
    (l.processAck now ack).Retains log := by
  unfold Link.processAck
  split_ifs with hflight
  · apply h.mono
    · exact le_rfl
    · exact fun _ => Multiset.mem_of_mem_erase
    · intro p hp
      rcases l.sender.mem_packets_processAck now ack hp with hkept | hacked
      · exact Or.inl hkept
      · exact Or.inr (hacked.trans_lt (h.acks ack hflight))
  · exact h

theorem step {input : Input} (hsurvives : l.Survives log input) :
    (l.step input).1.Retains (log ++ (l.step input).2) := by
  cases input with
  | assignSeq now frame isFireAndForget opaqueId =>
    exact h.assignSeq now frame isFireAndForget opaqueId
  | checkRto now => simpa [Link.step] using h.checkRto hsurvives
  | receiveFrame p => simpa [Link.step] using h.receiveFrame p
  | buildAckPayload hasGap => simpa [Link.step] using h.buildAckPayload hasGap
  | processAck now ack => simpa [Link.step] using h.processAck now ack
  | dataFault f =>
    rw [Link.step, List.append_nil]
    exact ⟨h.next_pos, h.acks, h.unseen⟩
  | ackFault f =>
    rw [Link.step, List.append_nil]
    apply h.mono
    · exact le_rfl
    · exact fun _ => Fault.mem_of_mem_apply
    · exact fun _ hp => Or.inl hp

end

end Retains

/-- Whatever the network does to frames and acknowledgements, every numbered
fire-and-forget frame is still queued with its bytes or below the receiver's
window, and no acknowledgement in flight has overtaken the window. -/
theorem sender_keeps_unseen (sender : ReliableSession) (localNode remoteNode : UInt16)
    (epoch : UInt32) (rtoBaseMs maxRetries : ℕ) (initialCredits : UInt32) {inputs : List Input}
    (hinputs : Runs.Meets step Survives
      (start sender (.new localNode remoteNode epoch rtoBaseMs maxRetries initialCredits)) []
      inputs) :
    let run := Runs.run step
      (start sender (.new localNode remoteNode epoch rtoBaseMs maxRetries initialCredits)) inputs
    (∀ ack ∈ run.1.acks, ack.ackSeq.toNat < run.1.receiver.dedup.nextExpected) ∧
    ∀ a ∈ run.2, a.isFireAndForget = true →
      (∃ entry ∈ run.1.sender.retransmitQueue,
        entry.seq = a.packet.seq ∧ entry.frame = a.packet.frame) ∨
      a.packet.seq < run.1.receiver.dedup.nextExpected := by
  intro run
  have hinit : (start sender
      (.new localNode remoteNode epoch rtoBaseMs maxRetries initialCredits)).Retains [] :=
    ⟨Nat.one_pos, by simp [start], by simp⟩
  have hrun : run.1.Retains run.2 := by
    simpa using Runs.run_invariant (fun _ _ _ h hi => h.step hi) hinit hinputs
  refine ⟨hrun.acks, ?_⟩
  intro a ha hff
  rcases hrun.unseen a ha hff with hqueued | hseen
  · obtain ⟨entry, hentry, hpacket⟩ := List.mem_map.mp hqueued
    refine Or.inl ⟨entry, hentry, ?_, ?_⟩
    · rw [← hpacket]
      rfl
    · rw [← hpacket]
      rfl
  · exact Or.inr hseen

/-- A frame is lost, resent after its timeout and received twice; the first
acknowledgement is copied, and both copies arrive. -/
theorem sender_keeps_unseen_resent :
    let frame := List.replicate 32 (0 : UInt8)
    let p : Packet := ⟨1, ReliableSession.patchAckReq (ReliableSession.patchSeq frame 1)⟩
    let ack : AckPayload := ⟨1, 1, 0, none⟩
    let inputs : List Input :=
      [.assignSeq 0 frame true 7, .dataFault (.drop p), .checkRto (fromMillis 200),
        .dataFault (.duplicate p), .receiveFrame p, .buildAckPayload false,
        .ackFault (.duplicate ack), .processAck (fromMillis 300) ack, .receiveFrame p,
        .processAck (fromMillis 300) ack]
    let run := Runs.run step (start (.new 1 2 100 200 8 64) (.new 2 1 100 200 8 64)) inputs
    (∀ ack ∈ run.1.acks, ack.ackSeq.toNat < run.1.receiver.dedup.nextExpected) ∧
    ∀ a ∈ run.2, a.isFireAndForget = true →
      (∃ entry ∈ run.1.sender.retransmitQueue,
        entry.seq = a.packet.seq ∧ entry.frame = a.packet.frame) ∨
      a.packet.seq < run.1.receiver.dedup.nextExpected := by
  intro frame p ack inputs
  have hsurvives : (((start (.new 1 2 100 200 8 64) (.new 2 1 100 200 8 64)).step
      (.assignSeq 0 frame true 7)).1.step (.dataFault (.drop p))).1.sender.Survives
        (fromMillis 200) := by
    decide
  exact sender_keeps_unseen _ 2 1 100 200 8 64
    ⟨trivial, trivial, hsurvives, trivial, trivial, trivial, trivial, trivial, trivial, trivial,
      trivial⟩

end Link
end UniBus.Transport
