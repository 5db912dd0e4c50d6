import UniBus.Foundations.Checked
import UniBus.Transport.Link

/-!
# Credits between two sessions

A sender spends one credit on every new frame; the receiver owes one for every
frame that reaches it and pays with the next acknowledgement. The credits in
circulation are those the sender has, those on the wire, those the receiver
owes, and one for every frame the receiver has not seen yet.
-/
namespace UniBus.Transport

open Wire Network

namespace Link

variable (l : Link)

/-- The send path: a credit is spent and the frame numbered, if the session is
active and has a credit. -/
def send (now : Instant) (frame : List UInt8) (isFireAndForget : Bool) (opaqueId : UInt64) :
    Link × List Assigned :=
  if l.sender.state ≠ .active then (l, [])
  else
    match l.sender.consumeCredit with
    | .error _ => (l, [])
    | .ok sender => { l with sender }.assignSeq now frame isFireAndForget opaqueId

/-- `handle_ack_frame` for an ACK in flight, with the frame that a third
duplicate resends put on the wire. -/
def handleAckFrame (now : Instant) (ack : AckPayload) : Link :=
  if ack ∈ l.acks then
    let (sender, retransmitSeq) := l.sender.processAckForFastRetransmit ack
    let resent := (retransmitSeq.bind sender.getRetransmitEntry).map (·.packet)
    { l with
      sender := (sender.processAck now ack).1
      data := ↑resent.toList + l.data
      acks := l.acks.erase ack }
  else l

inductive Exchange
  | send (now : Instant) (frame : List UInt8) (isFireAndForget : Bool) (opaqueId : UInt64)
  | checkRto (now : Instant)
  | receiveFrame (p : Packet)
  | buildAckPayload (hasGap : Bool)
  | handleAckFrame (now : Instant) (ack : AckPayload)
  | dataFault (f : Fault Packet)
  | ackFault (f : Fault AckPayload)

def exchange : Exchange → Link × List Assigned
  | .send now frame isFireAndForget opaqueId => l.send now frame isFireAndForget opaqueId
  | .checkRto now => (l.checkRto now, [])
  | .receiveFrame p => (l.receiveFrame p, [])
  | .buildAckPayload hasGap => (l.buildAckPayload hasGap, [])
  | .handleAckFrame now ack => (l.handleAckFrame now ack, [])
  | .dataFault f => ({ l with data := f.apply l.data }, [])
  | .ackFault f => ({ l with acks := f.apply l.acks }, [])

/-- The sent frames that the receiver has never seen. -/
def unseen (log : List Assigned) : ℕ :=
  log.countP fun a => !l.receiver.dedup.isSeen a.packet.seq

/-- The credits that acknowledgements in flight carry. -/
def granted : ℕ := (l.acks.map fun ack => ack.creditGrant.toNat).sum

def circulating (log : List Assigned) : ℕ :=
  l.sender.availableCredits.toNat + l.granted + l.receiver.creditsToGrant.toNat + l.unseen log

/-! ## Numbers -/

/-- Numbers are given out once, only numbered frames travel, and the receiver
has seen no other. -/
structure Numbered (l : Link) (log : List Assigned) : Prop where
  nodup : (log.map fun a => a.packet.seq).Nodup
  range : ∀ a ∈ log, 1 ≤ a.packet.seq ∧ a.packet.seq < l.sender.nextSeq
  next_pos : 1 ≤ l.sender.nextSeq
  queued : ∀ p ∈ l.sender.packets, p ∈ log.map fun a => a.packet
  data : ∀ p ∈ l.data, p ∈ log.map fun a => a.packet
  window : ∃ S : Set ℕ, l.receiver.dedup.Refines 1 S ∧ ∀ s ∈ S, s < l.sender.nextSeq
  window_pos : 0 < l.receiver.dedup.windowSize

namespace Numbered

variable {l : Link} {log : List Assigned}

section
variable (h : l.Numbered log)
include h

theorem mono {l' : Link} (hnext : l'.sender.nextSeq = l.sender.nextSeq)
    (hqueued : ∀ p ∈ l'.sender.packets, p ∈ l.sender.packets)
    (hdata : ∀ p ∈ l'.data, p ∈ l.sender.packets ∨ p ∈ l.data)
    (hdedup : l'.receiver.dedup = l.receiver.dedup) : l'.Numbered log := by
  constructor
  · exact h.nodup
  · rw [hnext]
    exact h.range
  · rw [hnext]
    exact h.next_pos
  · intro p hp
    exact h.queued p (hqueued p hp)
  · intro p hp
    rcases hdata p hp with hq | hd
    · exact h.queued p hq
    · exact h.data p hd
  · rw [hnext, hdedup]
    exact h.window
  · rw [hdedup]
    exact h.window_pos

theorem next_unseen :
    l.receiver.dedup.isSeen l.sender.nextSeq = false := by
  obtain ⟨S, hS, hlt⟩ := h.window
  rw [Bool.eq_false_iff, ne_eq, hS.isSeen_iff_mem h.next_pos]
  intro hmem
  exact lt_irrefl _ (hlt _ hmem)

theorem assignSeq (now : Instant) (frame : List UInt8) (isFireAndForget : Bool)
    (opaqueId : UInt64) :
    (l.assignSeq now frame isFireAndForget opaqueId).1.Numbered
      (log ++ (l.assignSeq now frame isFireAndForget opaqueId).2) := by
  have hpackets := l.sender.assignSeq_packets now frame isFireAndForget opaqueId
  constructor
  · simp only [Link.assignSeq, List.map_append, List.map_cons, List.map_nil]
    rw [List.nodup_append]
    refine ⟨h.nodup, by simp, ?_⟩
    intro s hs s' hs'
    obtain ⟨a, ha, rfl⟩ := List.mem_map.mp hs
    rw [List.mem_singleton.mp hs']
    exact (h.range a ha).2.ne
  · intro a ha
    rcases List.mem_append.mp ha with hold | hnew
    · have hrange := h.range a hold
      exact ⟨hrange.1, hrange.2.trans (Nat.lt_succ_self _)⟩
    · rw [List.mem_singleton.mp hnew]
      exact ⟨h.next_pos, Nat.lt_succ_self _⟩
  · exact h.next_pos.trans (Nat.le_succ _)
  · intro p hp
    rw [List.map_append]
    rcases List.mem_append.mp (hpackets ▸ hp) with hold | hnew
    · exact List.mem_append_left _ (h.queued p hold)
    · exact List.mem_append_right _ hnew
  · intro p hp
    rw [List.map_append]
    rcases Multiset.mem_cons.mp hp with rfl | hold
    · exact List.mem_append_right _ (List.mem_singleton.mpr rfl)
    · exact List.mem_append_left _ (h.data p hold)
  · obtain ⟨S, hS, hlt⟩ := h.window
    exact ⟨S, hS, fun s hs => (hlt s hs).trans (Nat.lt_succ_self _)⟩
  · exact h.window_pos

theorem checkRto (now : Instant) : (l.checkRto now).Numbered log := by
  apply h.mono
  · exact l.sender.checkRto_nextSeq now
  · exact fun p hp => l.sender.mem_packets_of_checkRto hp
  · intro p hp
    rcases Multiset.mem_add.mp hp with hresent | hold
    · obtain ⟨seq, -, hentry⟩ := List.mem_filterMap.mp (Multiset.mem_coe.mp hresent)
      obtain ⟨entry, hget, rfl⟩ := Option.map_eq_some_iff.mp hentry
      exact Or.inl (l.sender.mem_packets_of_checkRto
        (ReliableSession.packet_mem_of_getRetransmitEntry _ hget))
    · exact Or.inr hold
  · rfl

theorem handleAckFrame (now : Instant) (ack : AckPayload) :
    (l.handleAckFrame now ack).Numbered log := by
  unfold Link.handleAckFrame
  split_ifs
  · apply h.mono
    · simp
    · intro p hp
      simpa using ReliableSession.mem_packets_of_processAck _ hp
    · intro p hp
      rcases Multiset.mem_add.mp hp with hresent | hold
      · obtain ⟨entry, hget, rfl⟩ := Option.map_eq_some_iff.mp
          (Option.mem_toList.mp (Multiset.mem_coe.mp hresent))
        obtain ⟨seq, -, hget⟩ := Option.bind_eq_some_iff.mp hget
        have hmem := ReliableSession.packet_mem_of_getRetransmitEntry _ hget
        rw [ReliableSession.processAckForFastRetransmit_packets] at hmem
        exact Or.inl hmem
      · exact Or.inr hold
    · rfl
  · exact h

theorem receiveFrame (p : Packet) : (l.receiveFrame p).Numbered log := by
  unfold Link.receiveFrame
  split_ifs with hflight
  · obtain ⟨a, ha, rfl⟩ := List.mem_map.mp (h.data p hflight)
    refine ⟨h.nodup, h.range, h.next_pos, h.queued, ?_, ?_, ?_⟩
    · intro p hp
      exact h.data p (Multiset.mem_of_mem_erase hp)
    · obtain ⟨S, hS, hlt⟩ := h.window
      rw [ReliableSession.receiveFrame_dedup]
      split_ifs
      · refine ⟨_, hS.markAndAdvance a.packet.seq, ?_⟩
        rintro s (⟨rfl, -⟩ | hs)
        · exact (h.range a ha).2
        · exact hlt s hs
      · exact ⟨S, hS, hlt⟩
    · simpa using h.window_pos
  · exact h

theorem exchange (input : Exchange) :
    (l.exchange input).1.Numbered (log ++ (l.exchange input).2) := by
  cases input with
  | send now frame isFireAndForget opaqueId =>
    unfold Link.exchange Link.send
    dsimp only
    split_ifs
    · simpa using h
    · split
      · simpa using h
      · rename_i sender hconsume
        have hspent : ({ l with sender } : Link).Numbered log := by
          obtain ⟨-, rfl⟩ := ReliableSession.consumeCredit_ok hconsume
          exact h.mono rfl (fun _ hp => hp) (fun _ hp => Or.inr hp) rfl
        exact hspent.assignSeq now frame isFireAndForget opaqueId
  | checkRto now => simpa [Link.exchange] using h.checkRto now
  | receiveFrame p => simpa [Link.exchange] using h.receiveFrame p
  | buildAckPayload hasGap =>
    rw [Link.exchange, List.append_nil]
    exact h.mono rfl (fun _ hp => hp) (fun _ hp => Or.inr hp) rfl
  | handleAckFrame now ack => simpa [Link.exchange] using h.handleAckFrame now ack
  | dataFault f =>
    rw [Link.exchange, List.append_nil]
    exact h.mono rfl (fun _ hp => hp) (fun _ hp => Or.inr (Fault.mem_of_mem_apply hp)) rfl
  | ackFault f =>
    rw [Link.exchange, List.append_nil]
    exact h.mono rfl (fun _ hp => hp) (fun _ hp => Or.inr hp) rfl

end

/-! ## What a step does to the credits -/

theorem circulating_send (h : l.Numbered log) (now : Instant) (frame : List UInt8)
    (isFireAndForget : Bool) (opaqueId : UInt64) :
    (l.send now frame isFireAndForget opaqueId).1.circulating
      (log ++ (l.send now frame isFireAndForget opaqueId).2) = l.circulating log := by
  unfold Link.send
  split_ifs
  · simp
  · split
    · simp
    · rename_i sender hconsume
      have hspent := ReliableSession.toNat_consumeCredit hconsume
      have hnext : sender.nextSeq = l.sender.nextSeq := by
        rw [(ReliableSession.consumeCredit_ok hconsume).2]
      have hunseen := h.next_unseen
      rw [← hnext] at hunseen
      simp only [circulating, unseen, granted, Link.assignSeq, ReliableSession.assignSeq,
        List.countP_append, List.countP_singleton, hunseen, Bool.not_false, if_true]
      omega

theorem unseen_of_fresh (h : l.Numbered log) {p : Packet} (hflight : p ∈ l.data)
    (hfresh : l.receiver.dedup.Fresh p.seq) :
    l.unseen log = (l.receiveFrame p).unseen log + 1 := by
  obtain ⟨S, hS, -⟩ := h.window
  obtain ⟨a, ha, rfl⟩ := List.mem_map.mp (h.data p hflight)
  have hdedup : (l.receiveFrame a.packet).receiver.dedup =
      l.receiver.dedup.markAndAdvance a.packet.seq := by
    rw [Link.receiveFrame, if_pos hflight, ReliableSession.receiveFrame_dedup, if_pos hfresh]
  have hseen : ∀ b ∈ log, (l.receiver.dedup.markAndAdvance a.packet.seq).isSeen b.packet.seq =
      true ↔ b.packet.seq = a.packet.seq ∨ l.receiver.dedup.isSeen b.packet.seq = true :=
    fun b hb => hS.isSeen_markAndAdvance h.window_pos hfresh (h.range b hb).1
  have hnew : l.receiver.dedup.isSeen a.packet.seq = false := by
    rw [Bool.eq_false_iff, ne_eq, hS.isSeen_iff_mem (h.range a ha).1]
    exact ((hS.fresh_iff h.window_pos _).mp hfresh).2.2
  apply Runs.countP_eq_succ h.nodup ha
  · simp [hnew]
  · rw [hdedup]
    simp [(hseen a ha).mpr (Or.inl rfl)]
  · intro b hb hne
    rw [hdedup, Bool.not_inj_iff, Bool.eq_iff_iff, hseen b hb]
    simp [hne]

theorem unseen_of_not_fresh {p : Packet} (hfresh : ¬ l.receiver.dedup.Fresh p.seq) :
    (l.receiveFrame p).unseen log = l.unseen log := by
  unfold unseen Link.receiveFrame
  split_ifs
  · simp only [ReliableSession.receiveFrame_dedup, if_neg hfresh]
  · rfl

theorem circulating_receiveFrame (l : Link) (log : List Assigned) {p : Packet}
    (hflight : p ∈ l.data) :
    (l.receiveFrame p).circulating log =
      l.sender.availableCredits.toNat + l.granted + (l.receiver.creditsToGrant + 1).toNat +
        (l.receiveFrame p).unseen log := by
  have howed : (l.receiveFrame p).receiver.creditsToGrant = l.receiver.creditsToGrant + 1 := by
    rw [Link.receiveFrame, if_pos hflight]
    exact l.receiver.receiveFrame_creditsToGrant p.seq
  rw [circulating, howed, granted, granted]
  simp only [Link.receiveFrame, if_pos hflight]

theorem circulating_receiveFrame_le (h : l.Numbered log) {p : Packet}
    (hfresh : p ∈ l.data → l.receiver.dedup.Fresh p.seq) :
    (l.receiveFrame p).circulating log ≤ l.circulating log := by
  by_cases hflight : p ∈ l.data
  · have hunseen := h.unseen_of_fresh hflight (hfresh hflight)
    have howed : (l.receiver.creditsToGrant + 1).toNat ≤ l.receiver.creditsToGrant.toNat + 1 := by
      rw [UInt32.toNat_add]
      exact Nat.mod_le _ _
    rw [circulating_receiveFrame l log hflight, circulating, hunseen]
    omega
  · rw [Link.receiveFrame, if_neg hflight]

/-- Unless the counter overflows, no frame takes a credit out of circulation. -/
theorem le_circulating_receiveFrame (h : l.Numbered log) {p : Packet}
    (hroom : p ∈ l.data → l.receiver.creditsToGrant.toNat + 1 < 2 ^ 32) :
    l.circulating log ≤ (l.receiveFrame p).circulating log := by
  by_cases hflight : p ∈ l.data
  · have howed : (l.receiver.creditsToGrant + 1).toNat = l.receiver.creditsToGrant.toNat + 1 :=
      Checked.toNat_addU32_one (hroom hflight)
    rw [circulating_receiveFrame l log hflight, circulating, howed]
    by_cases hfresh : l.receiver.dedup.Fresh p.seq
    · have hunseen := h.unseen_of_fresh hflight hfresh
      omega
    · rw [unseen_of_not_fresh hfresh]
      omega
  · rw [Link.receiveFrame, if_neg hflight]

end Numbered

theorem circulating_buildAckPayload (log : List Assigned) (hasGap : Bool) :
    (l.buildAckPayload hasGap).circulating log = l.circulating log := by
  simp only [circulating, granted, unseen, Link.buildAckPayload, ReliableSession.buildAckPayload,
    Multiset.map_cons, Multiset.sum_cons, UInt32.toNat_zero]
  omega

theorem circulating_checkRto (log : List Assigned) (now : Instant) :
    (l.checkRto now).circulating log = l.circulating log := by
  simp only [circulating, granted, unseen, Link.checkRto, ReliableSession.checkRto_availableCredits]

/-- What was on the wire is available, up to the largest number of credits. -/
theorem circulating_handleAckFrame (log : List Assigned) (now : Instant) (ack : AckPayload) :
    (l.handleAckFrame now ack).circulating log = l.circulating log ∨
      (l.handleAckFrame now ack).circulating log ≤ l.circulating log ∧
        0xFFFFFFFF ≤ (l.handleAckFrame now ack).circulating log := by
  by_cases hflight : ack ∈ l.acks
  · have hsum : ack.creditGrant.toNat +
        ((l.acks.erase ack).map fun ack => ack.creditGrant.toNat).sum =
          (l.acks.map fun ack => ack.creditGrant.toNat).sum :=
      Multiset.sum_map_erase (f := fun ack : AckPayload => ack.creditGrant.toNat) hflight
    simp only [circulating, granted, unseen, Link.handleAckFrame, if_pos hflight,
      ReliableSession.toNat_processAck,
      ReliableSession.processAckForFastRetransmit_availableCredits]
    omega
  · rw [Link.handleAckFrame, if_neg hflight]
    exact Or.inl rfl

/-- Only a frame that arrives and a fault on the ACKs change the number of credits
in circulation, unless the sender has the largest number already. -/
theorem Numbered.circulating_exchange {log : List Assigned} (h : l.Numbered log)
    (input : Exchange) :
    (∃ p, input = .receiveFrame p) ∨ (∃ f, input = .ackFault f) ∨
      (l.exchange input).1.circulating (log ++ (l.exchange input).2) = l.circulating log ∨
      (l.exchange input).1.circulating (log ++ (l.exchange input).2) ≤ l.circulating log ∧
        0xFFFFFFFF ≤ (l.exchange input).1.circulating (log ++ (l.exchange input).2) := by
  cases input with
  | send now frame isFireAndForget opaqueId =>
    exact Or.inr (Or.inr (Or.inl (h.circulating_send now frame isFireAndForget opaqueId)))
  | receiveFrame p => exact Or.inl ⟨p, rfl⟩
  | ackFault f => exact Or.inr (Or.inl ⟨f, rfl⟩)
  | checkRto now =>
    rw [Link.exchange, List.append_nil]
    exact Or.inr (Or.inr (Or.inl (l.circulating_checkRto log now)))
  | buildAckPayload hasGap =>
    rw [Link.exchange, List.append_nil]
    exact Or.inr (Or.inr (Or.inl (l.circulating_buildAckPayload log hasGap)))
  | handleAckFrame now ack =>
    rw [Link.exchange, List.append_nil]
    exact Or.inr (Or.inr (l.circulating_handleAckFrame log now ack))
  | dataFault f =>
    rw [Link.exchange, List.append_nil]
    exact Or.inr (Or.inr (Or.inl rfl))

/-! ## Inflation -/

/-- Every frame that reaches the receiver is fresh to its window, and no ACK that
carries credits is copied. -/
def CreditedOnce (l : Link) (_ : List Assigned) : Exchange → Prop
  | .receiveFrame p => p ∈ l.data → l.receiver.dedup.Fresh p.seq
  | .ackFault f => ∀ ack ∈ l.acks, f = .duplicate ack → ack.creditGrant = 0
  | _ => True

theorem Numbered.circulating_exchange_le {log : List Assigned} (h : l.Numbered log)
    {input : Exchange} (honce : l.CreditedOnce log input) :
    (l.exchange input).1.circulating (log ++ (l.exchange input).2) ≤ l.circulating log := by
  rcases h.circulating_exchange l input with ⟨p, rfl⟩ | ⟨f, rfl⟩ | heq | ⟨hle, -⟩
  · rw [Link.exchange, List.append_nil]
    exact h.circulating_receiveFrame_le honce
  · rw [Link.exchange, List.append_nil]
    have hgranted := f.sum_apply_le (fun ack : AckPayload => ack.creditGrant.toNat)
      (fun ack hack hf => congrArg UInt32.toNat (honce ack hack hf))
    simp only [circulating, granted, unseen] at hgranted ⊢
    omega
  · exact heq.le
  · exact hle

theorem numbered_start (localNode remoteNode : UInt16) (epoch epoch' : UInt32)
    (rtoBaseMs rtoBaseMs' maxRetries maxRetries' : ℕ) (initialCredits initialCredits' : UInt32) :
    (start (.new localNode remoteNode epoch rtoBaseMs maxRetries initialCredits)
      (.new remoteNode localNode epoch' rtoBaseMs' maxRetries' initialCredits')).Numbered [] := by
  constructor
  · simp
  · simp
  · exact le_rfl
  · simp [start, ReliableSession.new, ReliableSession.packets]
  · simp [start]
  · exact ⟨∅, DedupWindow.refines_withWindowSize 1 1024 le_rfl, by simp⟩
  · exact Nat.succ_pos 1023

/-- If every frame is credited once, the credits in circulation never exceed those
the sender started with. -/
theorem credits_not_inflated (localNode remoteNode : UInt16) (epoch epoch' : UInt32)
    (rtoBaseMs rtoBaseMs' maxRetries maxRetries' : ℕ) (initialCredits initialCredits' : UInt32)
    {inputs : List Exchange}
    (hinputs : Runs.Meets exchange CreditedOnce
      (start (.new localNode remoteNode epoch rtoBaseMs maxRetries initialCredits)
        (.new remoteNode localNode epoch' rtoBaseMs' maxRetries' initialCredits')) [] inputs) :
    let run := Runs.run exchange
      (start (.new localNode remoteNode epoch rtoBaseMs maxRetries initialCredits)
        (.new remoteNode localNode epoch' rtoBaseMs' maxRetries' initialCredits')) inputs
    run.1.sender.availableCredits.toNat + run.1.granted + run.1.receiver.creditsToGrant.toNat +
      run.1.unseen run.2 ≤ initialCredits.toNat := by
  intro run
  have hinit := numbered_start localNode remoteNode epoch epoch' rtoBaseMs rtoBaseMs' maxRetries
    maxRetries' initialCredits initialCredits'
  have hrun : run.1.Numbered ([] ++ run.2) ∧
      run.1.circulating ([] ++ run.2) ≤ initialCredits.toNat := by
    apply Runs.run_invariant (I := fun l log =>
      Numbered l log ∧ l.circulating log ≤ initialCredits.toNat) _ _ hinputs
    · rintro l log input ⟨hnumbered, hle⟩ honce
      exact ⟨hnumbered.exchange input, (hnumbered.circulating_exchange_le l honce).trans hle⟩
    · exact ⟨hinit, by simp [start, circulating, granted, unseen, ReliableSession.new]⟩
  exact hrun.2

/-- A frame is lost and resent, another overtakes it, and one acknowledgement is
lost. -/
theorem credits_not_inflated_resent :
    let inputs : List Exchange :=
      [.send 0 [] true 7, .send 0 [] true 8, .dataFault (.drop ⟨1, []⟩),
        .receiveFrame ⟨2, []⟩, .buildAckPayload true, .checkRto (fromMillis 200),
        .receiveFrame ⟨1, []⟩, .buildAckPayload false,
        .handleAckFrame (fromMillis 300) ⟨2, 1, 0, none⟩]
    let run := Runs.run exchange (start (.new 1 2 100 200 8 2) (.new 2 1 100 200 8 2)) inputs
    run.1.sender.availableCredits.toNat + run.1.granted + run.1.receiver.creditsToGrant.toNat +
      run.1.unseen run.2 ≤ 2 := by
  intro inputs
  apply credits_not_inflated 1 2 100 100 200 200 8 8 2 2
  refine ⟨trivial, trivial, trivial, ?_, trivial, trivial, ?_, trivial, trivial, trivial⟩
  · intro _
    decide
  · intro _
    decide

/-- The network copies a frame, and the receiver owes two credits for the one that
the sender has spent. -/
theorem copied_frame_credited_twice :
    let run := Runs.run exchange (start (.new 1 2 100 200 8 1) (.new 2 1 100 200 8 1))
      [.send 0 [] true 7, .dataFault (.duplicate ⟨1, []⟩), .receiveFrame ⟨1, []⟩,
        .receiveFrame ⟨1, []⟩]
    run.1.sender.availableCredits.toNat + run.1.granted + run.1.receiver.creditsToGrant.toNat +
      run.1.unseen run.2 = 2 := by
  decide

/-! ## Leaks -/

/-- No ACK that carries credits is lost, and the counter of the credits owed does
not overflow. -/
def Keeps (l : Link) : Exchange → Prop
  | .receiveFrame p => p ∈ l.data → l.receiver.creditsToGrant.toNat + 1 < 2 ^ 32
  | .ackFault f => ∀ ack ∈ l.acks, f = .drop ack → ack.creditGrant = 0
  | _ => True

/-- Credits leave circulation only when the sender has the largest number already. -/
theorem Numbered.le_circulating_exchange {log : List Assigned} (h : l.Numbered log)
    {input : Exchange} (hkeeps : l.Keeps input) :
    l.circulating log ≤ (l.exchange input).1.circulating (log ++ (l.exchange input).2) ∨
      0xFFFFFFFF ≤ (l.exchange input).1.circulating (log ++ (l.exchange input).2) := by
  rcases h.circulating_exchange l input with ⟨p, rfl⟩ | ⟨f, rfl⟩ | heq | ⟨-, hmax⟩
  · rw [Link.exchange, List.append_nil]
    exact Or.inl (h.le_circulating_receiveFrame hkeeps)
  · rw [Link.exchange, List.append_nil]
    have hgranted := f.le_sum_apply (fun ack : AckPayload => ack.creditGrant.toNat)
      (fun ack hack hf => congrArg UInt32.toNat (hkeeps ack hack hf))
    left
    simp only [circulating, granted, unseen] at hgranted ⊢
    omega
  · exact Or.inl heq.ge
  · exact Or.inr hmax

end Link

/-- Two sessions with the CREDIT frames in flight as well. -/
structure CreditLink extends Link where
  credits : Multiset CreditPayload

namespace CreditLink

def start (sender receiver : ReliableSession) : CreditLink := ⟨Link.start sender receiver, 0⟩

variable (l : CreditLink)

/-- `grant_credits` of the receiving application, with the CREDIT frame that it
sends put on the wire. -/
def grantCredits (count : UInt32) : CreditLink :=
  let owed := { l.receiver with creditsToGrant := l.receiver.creditsToGrant + count }
  if owed.creditsToGrant ≥ 8 ∧ owed.shouldSendAck = false then
    { l with
      receiver := { owed with creditsToGrant := 0 }
      credits := ⟨owed.creditsToGrant, 0⟩ ::ₘ l.credits }
  else { l with receiver := owed }

/-- A CREDIT frame in flight reaches `handle_credit_frame`. -/
def handleCreditFrame (credit : CreditPayload) : CreditLink :=
  if credit ∈ l.credits then
    { l with sender := l.sender.addCredits credit.credits, credits := l.credits.erase credit }
  else l

inductive Input
  | exchange (input : Link.Exchange)
  | grantCredits (count : UInt32)
  | handleCreditFrame (credit : CreditPayload)
  | creditFault (f : Fault CreditPayload)

def step : Input → CreditLink × List Assigned
  | .exchange input =>
    let (link, assigned) := l.exchange input
    (⟨link, l.credits⟩, assigned)
  | .grantCredits count => (l.grantCredits count, [])
  | .handleCreditFrame credit => (l.handleCreditFrame credit, [])
  | .creditFault f => ({ l with credits := f.apply l.credits }, [])

/-- The credits that CREDIT frames in flight carry. -/
def creditsGranted : ℕ := (l.credits.map fun credit => credit.credits.toNat).sum

/-- Nor is a CREDIT frame that carries credits lost, or too much granted. -/
def NothingLost (l : CreditLink) (_ : List Assigned) : Input → Prop
  | .exchange input => l.Keeps input
  | .grantCredits count => l.receiver.creditsToGrant.toNat + count.toNat < 2 ^ 32
  | .handleCreditFrame _ => True
  | .creditFault f => ∀ credit ∈ l.credits, f = .drop credit → credit.credits = 0

theorem grantCredits_eq (count : UInt32) :
    l.grantCredits count =
      { l with receiver := { l.receiver with
          creditsToGrant := l.receiver.creditsToGrant + count } } :=
  if_neg (ReliableSession.not_creditFrameDue _)

/-- At least `c` credits are in circulation. -/
structure Covers (l : CreditLink) (c : ℕ) (log : List Assigned) : Prop where
  numbered : l.Numbered log
  le_circulating : c ≤ l.circulating log + l.creditsGranted

namespace Covers

variable {l : CreditLink} {c : ℕ} {log : List Assigned}

theorem grantCredits (h : l.Covers c log) {count : UInt32}
    (hroom : l.receiver.creditsToGrant.toNat + count.toNat < 2 ^ 32) :
    (l.grantCredits count).Covers c log := by
  have howed : (l.receiver.creditsToGrant + count).toNat =
      l.receiver.creditsToGrant.toNat + count.toNat := Checked.toNat_addU32 hroom
  have hle := h.le_circulating
  rw [grantCredits_eq]
  constructor
  · exact h.numbered.mono rfl (fun _ hp => hp) (fun _ hp => Or.inr hp) rfl
  · simp only [Link.circulating, Link.granted, Link.unseen, creditsGranted, howed] at hle ⊢
    omega

theorem handleCreditFrame (h : l.Covers c log) (hc : c ≤ 0xFFFFFFFF) (credit : CreditPayload) :
    (l.handleCreditFrame credit).Covers c log := by
  unfold CreditLink.handleCreditFrame
  split_ifs with hflight
  · have hsum : credit.credits.toNat +
        ((l.credits.erase credit).map fun credit => credit.credits.toNat).sum =
          (l.credits.map fun credit => credit.credits.toNat).sum :=
      Multiset.sum_map_erase (f := fun credit : CreditPayload => credit.credits.toNat) hflight
    have hle := h.le_circulating
    constructor
    · exact h.numbered.mono rfl (fun _ hp => hp) (fun _ hp => Or.inr hp) rfl
    · simp only [Link.circulating, Link.granted, Link.unseen, creditsGranted,
        ReliableSession.toNat_addCredits] at hle ⊢
      omega
  · exact h

theorem step (h : l.Covers c log) (hc : c ≤ 0xFFFFFFFF) {input : Input}
    (hlost : l.NothingLost log input) : (l.step input).1.Covers c (log ++ (l.step input).2) := by
  have hle := h.le_circulating
  cases input with
  | exchange input =>
    constructor
    · exact h.numbered.exchange input
    · have hcredits : (l.step (.exchange input)).1.creditsGranted = l.creditsGranted := rfl
      rw [hcredits]
      rcases h.numbered.le_circulating_exchange l.toLink hlost with hkept | hmax
      · exact hle.trans (Nat.add_le_add_right hkept _)
      · exact (hc.trans hmax).trans (Nat.le_add_right _ _)
  | grantCredits count =>
    rw [CreditLink.step, List.append_nil]
    exact h.grantCredits hlost
  | handleCreditFrame credit =>
    rw [CreditLink.step, List.append_nil]
    exact h.handleCreditFrame hc credit
  | creditFault f =>
    rw [CreditLink.step, List.append_nil]
    have hgranted := f.le_sum_apply (fun credit : CreditPayload => credit.credits.toNat)
      (fun credit hcredit hf => congrArg UInt32.toNat (hlost credit hcredit hf))
    exact ⟨h.numbered, hle.trans (Nat.add_le_add_left hgranted _)⟩

end Covers

/-- If nothing that carries credits is lost, the sender has all its credits back
whenever nothing is in flight and nothing is owed. -/
theorem credits_not_leaked (localNode remoteNode : UInt16) (epoch epoch' : UInt32)
    (rtoBaseMs rtoBaseMs' maxRetries maxRetries' : ℕ) (initialCredits initialCredits' : UInt32)
    {inputs : List Input}
    (hinputs : Runs.Meets step NothingLost
      (start (.new localNode remoteNode epoch rtoBaseMs maxRetries initialCredits)
        (.new remoteNode localNode epoch' rtoBaseMs' maxRetries' initialCredits')) [] inputs) :
    let run := Runs.run step
      (start (.new localNode remoteNode epoch rtoBaseMs maxRetries initialCredits)
        (.new remoteNode localNode epoch' rtoBaseMs' maxRetries' initialCredits')) inputs
    run.1.data = 0 → run.1.acks = 0 → run.1.credits = 0 →
      (∀ a ∈ run.2, run.1.receiver.dedup.isSeen a.packet.seq = true) →
      run.1.receiver.creditsToGrant = 0 → initialCredits ≤ run.1.sender.availableCredits := by
  intro run _ hacks hcredits hseen howed
  have hmax : initialCredits.toNat ≤ 0xFFFFFFFF := Nat.le_of_lt_succ initialCredits.toNat_lt
  have hinit : (start (.new localNode remoteNode epoch rtoBaseMs maxRetries initialCredits)
      (.new remoteNode localNode epoch' rtoBaseMs' maxRetries' initialCredits')).Covers
        initialCredits.toNat [] := by
    constructor
    · exact Link.numbered_start localNode remoteNode epoch epoch' rtoBaseMs rtoBaseMs' maxRetries
        maxRetries' initialCredits initialCredits'
    · simp [start, Link.start, Link.circulating, ReliableSession.new, Nat.add_assoc]
  have hrun : run.1.Covers initialCredits.toNat run.2 := by
    simpa using Runs.run_invariant (I := fun l log => Covers l initialCredits.toNat log)
      (fun _ _ _ h hlost => h.step hmax hlost) hinit hinputs
  have hunseen : run.1.unseen run.2 = 0 := by
    rw [Link.unseen, List.countP_eq_zero]
    intro a ha
    simp [hseen a ha]
  have hle := hrun.le_circulating
  rw [Link.circulating, Link.granted, creditsGranted, hacks, hcredits, howed, hunseen] at hle
  rw [UInt32.le_iff_toNat_le]
  simpa using hle

/-- A frame is lost, resent and acknowledged; a second acknowledgement carries
nothing and is lost. -/
theorem credits_not_leaked_resent :
    let inputs : List Input :=
      [.exchange (.send 0 [] true 7), .exchange (.dataFault (.drop ⟨1, []⟩)),
        .exchange (.checkRto (fromMillis 200)), .exchange (.receiveFrame ⟨1, []⟩),
        .exchange (.buildAckPayload false), .exchange (.buildAckPayload false),
        .exchange (.ackFault (.drop ⟨1, 0, 0, none⟩)),
        .exchange (.handleAckFrame (fromMillis 300) ⟨1, 1, 0, none⟩)]
    let run := Runs.run step (start (.new 1 2 100 200 8 1) (.new 2 1 100 200 8 1)) inputs
    1 ≤ run.1.sender.availableCredits := by
  intro inputs
  apply credits_not_leaked 1 2 100 100 200 200 8 8 1 1
  · refine ⟨trivial, trivial, trivial, ?_, trivial, trivial, ?_, trivial, trivial⟩
    · intro _
      decide
    · rintro ack - hf
      cases hf
      rfl
  · decide
  · decide
  · decide
  · decide
  · decide

/-- Sixteen frames arrive in order. The acknowledgement after the eighth is lost,
the one after the sixteenth clears the queue of the sender, and half of its
credits are gone for good. -/
theorem lost_ack_leaks :
    let frames := List.range' 1 16
    let receive (seq : ℕ) : Input := .exchange (.receiveFrame ⟨seq, []⟩)
    let inputs : List Input :=
      frames.map (fun _ => .exchange (.send 0 [] true 7)) ++ (frames.take 8).map receive ++
        [.exchange (.buildAckPayload false), .exchange (.ackFault (.drop ⟨8, 8, 0, none⟩))] ++
        (frames.drop 8).map receive ++
        [.exchange (.buildAckPayload false), .exchange (.handleAckFrame 0 ⟨16, 8, 0, none⟩)]
    let run := Runs.run step (start (.new 1 2 100 200 8 16) (.new 2 1 100 200 8 16)) inputs
    run.1.data = 0 ∧ run.1.acks = 0 ∧ run.1.credits = 0 ∧
      (∀ a ∈ run.2, run.1.receiver.dedup.isSeen a.packet.seq = true) ∧
      run.1.receiver.creditsToGrant = 0 ∧ run.1.sender.retransmitQueue = [] ∧
      run.1.sender.availableCredits = 8 := by
  decide +kernel

end CreditLink

end UniBus.Transport
