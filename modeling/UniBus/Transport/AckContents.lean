import UniBus.Foundations.Runs
import UniBus.Transport.Panics

/-!
# What an acknowledgement says

Runs of `receive_frame` on a new session, with the number and the outcome of every call. The
window stands for the set of accepted numbers, so the acknowledgement built from it names
the largest number up to which all were accepted, its bitmap the accepted ones after that,
and the peer decodes both as they were.
-/
namespace UniBus.Transport

open Wire

namespace ReliableSession

variable (s : ReliableSession)

def receive (seq : ℕ) : ReliableSession × List (ℕ × ReceiveAction) :=
  let (s, action) := s.receiveFrame seq
  (s, [(seq, action)])

/-- The number was delivered, or taken out of order. -/
def Accepted (log : List (ℕ × ReceiveAction)) (seq : ℕ) : Prop :=
  (seq, .deliver) ∈ log ∨ (seq, .outOfOrder) ∈ log

def sackBit (bitmap : Vector UInt8 32) (i : ℕ) : Bool :=
  WordBits.bit (bitmap.map UInt8.toBitVec) i

/-! ## The window after a run -/

/-- The window stands for the accepted numbers, and the counters for the calls. -/
structure Receiving (log : List (ℕ × ReceiveAction)) : Prop where
  refines : s.dedup.Refines 1 {seq | Accepted log seq}
  windowSize : s.dedup.windowSize = 1024
  frames : s.framesSinceLastAck.toNat = log.length
  credits : s.creditsToGrant.toNat = log.length
  bounded : ∀ seq, Accepted log seq → seq < 2 ^ 64 - 2048

theorem receiving_new (localNode remoteNode : UInt16) (epoch : UInt32)
    (rtoBaseMs maxRetries : ℕ) (initialCredits : UInt32) :
    (new localNode remoteNode epoch rtoBaseMs maxRetries initialCredits).Receiving [] := by
  have hnone : {seq | Accepted [] seq} = ∅ := by
    apply Set.eq_empty_of_forall_notMem
    rintro seq (h | h)
    · exact List.not_mem_nil h
    · exact List.not_mem_nil h
  constructor
  · rw [hnone]
    exact DedupWindow.refines_withWindowSize 1 1024 le_rfl
  · rfl
  · rfl
  · rfl
  · rintro seq (h | h)
    · exact absurd h List.not_mem_nil
    · exact absurd h List.not_mem_nil

variable {s} {log : List (ℕ × ReceiveAction)}

theorem length_receive (s : ReliableSession) (log : List (ℕ × ReceiveAction)) (seq : ℕ) :
    (log ++ (s.receive seq).2).length = log.length + 1 := List.length_append

theorem accepted_receive_iff (s : ReliableSession) (log : List (ℕ × ReceiveAction))
    (seq n : ℕ) :
    Accepted (log ++ (s.receive seq).2) n ↔ (n = seq ∧ s.dedup.Fresh seq) ∨ Accepted log n := by
  have hevents : (s.receive seq).2 = [(seq, (s.receiveFrame seq).2)] := rfl
  have hdeliver : (s.receiveFrame seq).2 = .deliver ↔ s.dedup.check seq = .inOrder := by
    cases h : s.dedup.check seq <;> simp [receiveFrame, h]
  have hout : (s.receiveFrame seq).2 = .outOfOrder ↔ s.dedup.check seq = .outOfOrder := by
    cases h : s.dedup.check seq <;> simp [receiveFrame, h]
  simp only [Accepted, hevents, List.mem_append, List.mem_singleton, Prod.mk.injEq,
    DedupWindow.Fresh, ← hdeliver, ← hout, eq_comm (b := (s.receiveFrame seq).2)]
  tauto

theorem Receiving.nextExpected_le (h : s.Receiving log) :
    s.dedup.nextExpected ≤ 2 ^ 64 - 2048 := by
  have hfirst := h.refines.first_le
  by_cases hone : s.dedup.nextExpected = 1
  · omega
  · have hlast := h.bounded (s.dedup.nextExpected - 1)
      (h.refines.below (s.dedup.nextExpected - 1) (by omega) (by omega))
    omega

theorem Receiving.safe (h : s.Receiving log) (hlen : log.length + 1 < 2 ^ 32) (seq : ℕ) :
    s.receiveFrame? seq = some (s.receiveFrame seq) := by
  have hnext := h.nextExpected_le
  apply receiveFrame?_eq_of_lt
  · omega
  · rw [h.frames]
    exact hlen
  · rw [h.credits]
    exact hlen

theorem Receiving.receive (h : s.Receiving log) (hlen : log.length + 1 < 2 ^ 32) {seq : ℕ}
    (hseq : seq < 2 ^ 64 - 2048) :
    (s.receive seq).1.Receiving (log ++ (s.receive seq).2) := by
  have hstate : (s.receive seq).1 = (s.receiveFrame seq).1 := rfl
  have hpos : 0 < s.dedup.windowSize := by
    rw [h.windowSize]
    decide
  have hadd : ∀ a : UInt32, a.toNat = log.length → (a + 1).toNat = log.length + 1 := by
    intro a ha
    rw [← ha] at hlen ⊢
    exact Checked.toNat_addU32_one hlen
  rw [hstate]
  constructor
  · rw [s.receiveFrame_dedup]
    by_cases hfresh : s.dedup.Fresh seq
    · obtain ⟨hle, hlt, -⟩ := (h.refines.fresh_iff hpos seq).mp hfresh
      have hset : {n | Accepted (log ++ (s.receive seq).2) n} =
          {n | n = seq ∧ s.dedup.nextExpected ≤ seq ∧
            seq < s.dedup.nextExpected + s.dedup.windowSize} ∪ {n | Accepted log n} := by
        apply Set.ext
        intro n
        rw [Set.mem_union]
        change Accepted (log ++ (s.receive seq).2) n ↔ _
        rw [s.accepted_receive_iff]
        exact or_congr_left (and_congr_right fun _ => iff_of_true hfresh ⟨hle, hlt⟩)
      rw [if_pos hfresh, hset]
      exact h.refines.markAndAdvance seq
    · have hset : {n | Accepted (log ++ (s.receive seq).2) n} = {n | Accepted log n} := by
        apply Set.ext
        intro n
        change Accepted (log ++ (s.receive seq).2) n ↔ Accepted log n
        rw [s.accepted_receive_iff, or_iff_right]
        exact fun hn => hfresh hn.2
      rw [if_neg hfresh, hset]
      exact h.refines
  · rw [s.receiveFrame_windowSize]
    exact h.windowSize
  · rw [s.receiveFrame_framesSinceLastAck, length_receive]
    exact hadd _ h.frames
  · rw [s.receiveFrame_creditsToGrant, length_receive]
    exact hadd _ h.credits
  · intro n hn
    rcases (s.accepted_receive_iff log seq n).mp hn with ⟨rfl, -⟩ | hold
    · exact hseq
    · exact h.bounded n hold

/-! ## The acknowledgement -/

/-- The acknowledgement says what was accepted, no more and no less, and reaches the
decoder as it was built. -/
structure AckExact (s : ReliableSession) (log : List (ℕ × ReceiveAction)) (hasGap : Bool) :
    Prop where
  safe : s.buildAckPayload? hasGap = some (s.buildAckPayload hasGap)
  ackSeq : IsGreatest {n | ∀ k, 1 ≤ k → k ≤ n → Accepted log k}
    (s.buildAckPayload hasGap).2.ackSeq.toNat
  bitmap : (s.buildAckPayload hasGap).2.sackBitmap.isSome = hasGap ∧
    ∀ bitmap, (s.buildAckPayload hasGap).2.sackBitmap = some bitmap →
      sackBit bitmap 0 = false ∧ ∀ i < 256, sackBit bitmap i = true ↔
        Accepted log ((s.buildAckPayload hasGap).2.ackSeq.toNat + 1 + i)
  decodes : ∀ localNode remoteNode, ∃ header payload,
    decodeFrame (buildAckFrame localNode remoteNode (s.buildAckPayload hasGap).2) =
        .ok (header, none, payload) ∧
      decodeAckPayload payload (header.flags.contains FrameFlags.hasSack) =
        .ok (s.buildAckPayload hasGap).2

theorem sackBit_sackBitmap (s : ReliableSession) (base : ℕ) {i : ℕ} (hi : i < 256) :
    sackBit ((s.sackBitmap base).map UInt8.ofBitVec) i = true ↔
      s.dedup.isSeen (base + i) = true := by
  have hmap : ((s.sackBitmap base).map UInt8.ofBitVec).map UInt8.toBitVec = s.sackBitmap base := by
    rw [Vector.map_map]
    exact Vector.map_id _
  rw [sackBit, hmap, sackBitmap,
    WordBits.bit_foldl_setBit (fun i => s.dedup.isSeen (base + i)) (fun i => List.mem_range.mp),
    WordBits.bit_replicate_zero, List.mem_range]
  simp [hi]

theorem Receiving.ackSeq_toNat (h : s.Receiving log) (hasGap : Bool) :
    (s.buildAckPayload hasGap).2.ackSeq.toNat = s.dedup.nextExpected - 1 := by
  have hnext := h.nextExpected_le
  exact UInt64.toNat_ofNat_of_lt' (by change _ < 2 ^ 64; omega)

theorem Receiving.ackSeq_isGreatest (h : s.Receiving log) (hasGap : Bool) :
    IsGreatest {n | ∀ k, 1 ≤ k → k ≤ n → Accepted log k}
      (s.buildAckPayload hasGap).2.ackSeq.toNat := by
  have hfirst := h.refines.first_le
  rw [h.ackSeq_toNat]
  constructor
  · intro k hk hle
    exact h.refines.below k hk (by omega)
  · intro n hn
    by_contra hlt
    exact h.refines.next_notMem (hn s.dedup.nextExpected hfirst (by omega))

theorem Receiving.sackBit_iff (h : s.Receiving log) {bitmap : Vector UInt8 32}
    (hbitmap : (s.buildAckPayload true).2.sackBitmap = some bitmap) {i : ℕ} (hi : i < 256) :
    sackBit bitmap i = true ↔
      Accepted log ((s.buildAckPayload true).2.ackSeq.toNat + 1 + i) := by
  cases hbitmap
  rw [s.sackBit_sackBitmap _ hi, h.ackSeq_toNat,
    h.refines.isSeen_iff_mem (by omega : 1 ≤ s.dedup.nextExpected - 1 + 1 + i)]
  rfl

theorem Receiving.ackExact (h : s.Receiving log) (hasGap : Bool) : s.AckExact log hasGap := by
  have hnext := h.nextExpected_le
  have hfirst := h.refines.first_le
  constructor
  · exact buildAckPayload?_eq (by omega) hasGap
  · exact h.ackSeq_isGreatest hasGap
  · cases hasGap with
    | false =>
      refine ⟨rfl, ?_⟩
      intro bitmap hbitmap
      cases hbitmap
    | true =>
      refine ⟨rfl, ?_⟩
      intro bitmap hbitmap
      have hbits : ∀ i < 256, sackBit bitmap i = true ↔
          Accepted log ((s.buildAckPayload true).2.ackSeq.toNat + 1 + i) :=
        fun i hi => h.sackBit_iff hbitmap hi
      refine ⟨?_, hbits⟩
      -- bit 0 stands for the expected number, which is missing
      rw [Bool.eq_false_iff, ne_eq, hbits 0 (by decide), h.ackSeq_toNat,
        Nat.sub_add_cancel hfirst]
      exact h.refines.next_notMem
  · intro localNode remoteNode
    obtain ⟨header, hdecode, -, -, hflag⟩ :=
      decodeFrame_buildAckFrame localNode remoteNode (s.buildAckPayload hasGap).2
    refine ⟨header, _, hdecode, ?_⟩
    rw [hflag]
    exact decodeAckPayload_encode _

/-- After any run of calls the acknowledgement is exact, and no call panics. -/
theorem ack_contents_exact (localNode remoteNode : UInt16) (epoch : UInt32)
    (rtoBaseMs maxRetries : ℕ) (initialCredits : UInt32) {seqs : List ℕ}
    (hlen : seqs.length < 2 ^ 32) (hseqs : ∀ seq ∈ seqs, seq < 2 ^ 64 - 2048) (hasGap : Bool) :
    let start := new localNode remoteNode epoch rtoBaseMs maxRetries initialCredits
    let run := Runs.run receive start seqs
    Runs.Meets receive (fun s _ seq => s.receiveFrame? seq = some (s.receiveFrame seq)) start []
        seqs ∧
      run.1.AckExact run.2 hasGap := by
  intro start run
  have hlog : ([] ++ run.2).length < 2 ^ 32 :=
    (Runs.length_log_le receive (fun _ _ => le_rfl) start seqs).trans_lt hlen
  have hroom : Runs.Meets receive (fun s log seq => (log ++ (s.receive seq).2).length < 2 ^ 32)
      start [] seqs := by
    apply Runs.meets_of_log (P := fun log => log.length < 2 ^ 32) _ hlog
    intro log events hlt
    rw [List.length_append] at hlt
    omega
  have hmeets := hroom.and (Runs.meets_of_forall_mem hseqs)
  have hstep : ∀ (s : ReliableSession) (log : List (ℕ × ReceiveAction)) (seq : ℕ),
      s.Receiving log →
      (log ++ (s.receive seq).2).length < 2 ^ 32 ∧ seq < 2 ^ 64 - 2048 →
      (s.receive seq).1.Receiving (log ++ (s.receive seq).2) := by
    intro s log seq h hadmitted
    exact h.receive (s.length_receive log seq ▸ hadmitted.1) hadmitted.2
  have hstart : start.Receiving [] := receiving_new _ _ _ _ _ _
  constructor
  · apply hmeets.of_invariant (I := Receiving) _ hstep hstart
    intro s log seq h hadmitted
    exact h.safe (s.length_receive log seq ▸ hadmitted.1) seq
  · have hreceiving : run.1.Receiving run.2 := Runs.run_invariant hstep hstart hmeets
    exact hreceiving.ackExact hasGap

theorem ack_contents_exact_with_gaps :
    let run := Runs.run receive (new 1 2 5 200 8 4) [1, 3, 9, 3]
    (run.1.buildAckPayload true).2.ackSeq = 1 ∧
      ((run.1.buildAckPayload true).2.sackBitmap.map fun bitmap =>
        (List.range 256).filter (sackBit bitmap)) = some [1, 7] ∧
      run.1.AckExact run.2 true := by
  intro run
  refine ⟨by decide, by decide +kernel, ?_⟩
  exact (ack_contents_exact 1 2 5 200 8 4 (by decide) (by decide) true).2

end ReliableSession
end UniBus.Transport
