import UniBus.Transport.Panics
import UniBus.Transport.Requests
import UniBus.Transport.RetransmitQueue

/-!
# Retries of a session

The timeout check over whole runs. An entry counts how often its number has been returned,
so the deadlines back off with the number of retries so far, and the session dies as soon
as an entry that has used all its retries is due again.
-/
namespace UniBus.Transport

open Wire

namespace RetransmitEntry

def reschedule (k : ℕ) (deadline : Instant) (entry : RetransmitEntry) : RetransmitEntry :=
  { entry with retryCount := k, rtoDeadline := deadline }

/-- The entry after it was returned for the `k`-th time. -/
def retried (now : Instant) (rtoBaseMs k : ℕ) (entry : RetransmitEntry) : RetransmitEntry :=
  entry.reschedule k (now + fromMillis (rtoBaseMs * 2 ^ min k 10))

-- Stated for any deadline: the kernel would compute with the one of `retried`.
theorem seq_reschedule (entry : RetransmitEntry) (k : ℕ) (deadline : Instant) :
    (entry.reschedule k deadline).seq = entry.seq := rfl

theorem retryCount_reschedule (entry : RetransmitEntry) (k : ℕ) (deadline : Instant) :
    (entry.reschedule k deadline).retryCount = k := rfl

end RetransmitEntry

namespace ReliableSession

/-! ## The scan, checked -/

def scanRto? (now : Instant) (rtoBaseMs maxRetries : ℕ) :
    List RetransmitEntry → Option (List RetransmitEntry × List ℕ × Bool)
  | [] => some ([], [], false)
  | entry :: rest =>
    if now ≥ entry.rtoDeadline then do
      let retryCount ← Checked.add 32 entry.retryCount 1
      if retryCount > maxRetries then return ({ entry with retryCount } :: rest, [], true)
      else
        let backoff ← Checked.mul 64 rtoBaseMs (2 ^ min retryCount 10)
        let (rest, seqs, shouldKill) ← scanRto? now rtoBaseMs maxRetries rest
        return ({ entry with retryCount, rtoDeadline := now + fromMillis backoff } :: rest,
          entry.seq :: seqs, shouldKill)
    else do
      let (rest, seqs, shouldKill) ← scanRto? now rtoBaseMs maxRetries rest
      return (entry :: rest, seqs, shouldKill)

def checkRto? (s : ReliableSession) (now : Instant) : Option (ReliableSession × List ℕ) :=
  if s.state ≠ .active then some (s, [])
  else do
    let (queue, timeoutSeqs, shouldKill) ←
      scanRto? now s.rtoBaseMs s.maxRetries s.retransmitQueue
    let s := { s with retransmitQueue := queue }
    if shouldKill then return (s.kill.1, [])
    else return (if timeoutSeqs = [] then s else s.onLoss, timeoutSeqs)

section Scan
variable {now : Instant} {rtoBaseMs maxRetries : ℕ} {queue : List RetransmitEntry}

/-- The scan does not panic as long as the counts are within the limit. -/
theorem scanRto?_eq (hmax : maxRetries < 2 ^ 32 - 1)
    (hbackoff : ∀ k ≤ maxRetries, rtoBaseMs * 2 ^ min k 10 < 2 ^ 64)
    (hcounts : ∀ entry ∈ queue, entry.retryCount ≤ maxRetries) :
    scanRto? now rtoBaseMs maxRetries queue = some (scanRto now rtoBaseMs maxRetries queue) := by
  induction queue with
  | nil => rfl
  | cons entry rest ih =>
    have hentry := hcounts entry List.mem_cons_self
    have hrest := ih fun e he => hcounts e (List.mem_cons_of_mem _ he)
    have hadd : Checked.add 32 entry.retryCount 1 = some (entry.retryCount + 1) :=
      Checked.add_eq_some (by omega)
    rw [scanRto?, scanRto]
    split_ifs with hdue
    · simp only [hadd, Option.bind_eq_bind, Option.bind_some]
      split_ifs with hspent
      · rfl
      · have hmul := Checked.mul_eq_some (hbackoff (entry.retryCount + 1) (Nat.not_lt.mp hspent))
        simp only [hmul, hrest, Option.bind_some]
        rfl
    · simp only [hrest, Option.bind_eq_bind, Option.bind_some]
      rfl

/-- Without an entry that is out of retries, the scan returns the due numbers in order and
backs off the due entries. -/
theorem scanRto_eq
    (h : ∀ entry ∈ queue, entry.rtoDeadline ≤ now → entry.retryCount + 1 ≤ maxRetries) :
    scanRto now rtoBaseMs maxRetries queue =
      (queue.map fun entry =>
          if entry.rtoDeadline ≤ now then entry.retried now rtoBaseMs (entry.retryCount + 1)
          else entry,
        (queue.filter fun entry => entry.rtoDeadline ≤ now).map RetransmitEntry.seq, false) := by
  induction queue with
  | nil => rfl
  | cons entry rest ih =>
    have hrest := ih fun e he => h e (List.mem_cons_of_mem _ he)
    rw [scanRto, hrest]
    by_cases hdue : entry.rtoDeadline ≤ now
    · have hentry := h entry List.mem_cons_self hdue
      rw [if_pos hdue]
      dsimp only
      rw [if_neg (Nat.not_lt.mpr hentry)]
      simp [hdue, RetransmitEntry.retried, RetransmitEntry.reschedule]
    · rw [if_neg hdue]
      simp [hdue]

theorem count_due (hnodup : (queue.map RetransmitEntry.seq).Nodup) {entry : RetransmitEntry}
    (hentry : entry ∈ queue) :
    ((queue.filter fun e => e.rtoDeadline ≤ now).map RetransmitEntry.seq).count entry.seq =
      if entry.rtoDeadline ≤ now then 1 else 0 := by
  have hdue : entry.seq ∈ (queue.filter fun e => e.rtoDeadline ≤ now).map RetransmitEntry.seq ↔
      entry.rtoDeadline ≤ now := by
    constructor
    · intro hmem
      obtain ⟨e, he, hseq⟩ := List.mem_map.mp hmem
      obtain ⟨he, hdue⟩ := List.mem_filter.mp he
      rw [← List.inj_on_of_nodup_map hnodup he hentry hseq]
      exact of_decide_eq_true hdue
    · intro hdue
      exact List.mem_map_of_mem (List.mem_filter.mpr ⟨hentry, decide_eq_true hdue⟩)
  rw [(hnodup.sublist (List.filter_sublist.map _)).count]
  simp only [hdue]

end Scan

/-! ## Counts over a run -/

variable {s : ReliableSession} {log : List SenderEvent}

theorem expired_injective : Function.Injective SenderEvent.expired := by
  intro seq seq' h
  cases h
  rfl

/-- Every entry counts the times its number was returned, within the limit; numbers that
are still to be given out were never returned. -/
structure Retried (s : ReliableSession) (log : List SenderEvent) : Prop where
  inSequence : s.InSequence
  counted : ∀ entry ∈ s.retransmitQueue, entry.retryCount = log.count (.expired entry.seq)
  bounded : ∀ entry ∈ s.retransmitQueue, entry.retryCount ≤ s.maxRetries
  below : ∀ seq, .expired seq ∈ log → seq < s.nextSeq

theorem Retried.nodup (h : s.Retried log) :
    (s.retransmitQueue.map RetransmitEntry.seq).Nodup := by
  have hincreasing := h.inSequence.increasing
  rw [packets, List.map_map] at hincreasing
  exact hincreasing.imp fun hlt => ne_of_lt hlt

theorem Retried.seq_lt (h : s.Retried log) {entry : RetransmitEntry}
    (hentry : entry ∈ s.retransmitQueue) : entry.seq < s.nextSeq :=
  h.inSequence.below entry.packet (List.mem_map_of_mem hentry)

theorem retried_new (localNode remoteNode : UInt16) (epoch : UInt32)
    (rtoBaseMs maxRetries : ℕ) (initialCredits : UInt32) :
    (new localNode remoteNode epoch rtoBaseMs maxRetries initialCredits).Retried [] := by
  constructor
  · exact inSequence_new _ _ _ _ _ _
  · exact fun _ h => absurd h List.not_mem_nil
  · exact fun _ h => absurd h List.not_mem_nil
  · exact fun _ h => absurd h List.not_mem_nil

theorem limits_call (s : ReliableSession) (c : SenderCall) :
    (s.call c).1.maxRetries = s.maxRetries ∧ (s.call c).1.rtoBaseMs = s.rtoBaseMs := by
  cases c with
  | assignSeq => exact ⟨rfl, rfl⟩
  | processAck now ack =>
    rw [call]
    rcases s.processAck_cases now ack with ⟨-, heq⟩ | ⟨-, srtt, rttvar, rto, heq⟩
    · rw [heq]
      exact ⟨rfl, rfl⟩
    · rw [heq]
      exact ⟨rfl, rfl⟩
  | processAckForFastRetransmit ack =>
    obtain ⟨lastAckSeq, dupAckCount, heq⟩ := s.processAckForFastRetransmit_eq ack
    rw [call_processAckForFastRetransmit, heq]
    exact ⟨rfl, rfl⟩
  | completeRequest => exact ⟨rfl, rfl⟩
  | onNewAck => exact ⟨rfl, rfl⟩
  | onLoss => exact ⟨rfl, rfl⟩
  | checkRto now =>
    obtain ⟨_, _, _, _, _, heq⟩ := s.checkRto_eq now
    rw [call_checkRto, heq]
    exact ⟨rfl, rfl⟩
  | kill => exact ⟨rfl, rfl⟩

theorem Retried.of_sublist (h : s.Retried log) {c : SenderCall} (hassign : c.isAssignSeq = false)
    (hqueue : (s.call c).1.retransmitQueue.Sublist s.retransmitQueue)
    (hevents : ∀ seq, .expired seq ∉ (s.call c).2) :
    (s.call c).1.Retried (log ++ (s.call c).2) := by
  have hnext := (s.packets_call_sublist hassign).2
  constructor
  · exact h.inSequence.call c
  · intro entry hentry
    rw [List.count_append, List.count_eq_zero_of_not_mem (hevents entry.seq), Nat.add_zero]
    exact h.counted entry (hqueue.subset hentry)
  · intro entry hentry
    rw [(s.limits_call c).1]
    exact h.bounded entry (hqueue.subset hentry)
  · intro seq hseq
    rw [hnext]
    rcases List.mem_append.mp hseq with hold | hnew
    · exact h.below seq hold
    · exact absurd hnew (hevents seq)

theorem Retried.call_assignSeq (h : s.Retried log) (now : Instant) (frame : List UInt8)
    (isFireAndForget : Bool) (opaqueId : UInt64) :
    let c : SenderCall := .assignSeq now frame isFireAndForget opaqueId
    (s.call c).1.Retried (log ++ (s.call c).2) := by
  intro c
  have hcount : ∀ seq, (log ++ (s.call c).2).count (.expired seq) = log.count (.expired seq) := by
    intro seq
    rw [List.count_append, List.count_eq_zero_of_not_mem (l := (s.call c).2), Nat.add_zero]
    simp [c, call]
  have hqueue : ∀ entry ∈ (s.call c).1.retransmitQueue,
      entry ∈ s.retransmitQueue ∨ entry.seq = s.nextSeq ∧ entry.retryCount = 0 := by
    intro entry hentry
    rcases List.mem_append.mp hentry with hold | hnew
    · exact Or.inl hold
    · rw [List.mem_singleton.mp hnew]
      exact Or.inr ⟨rfl, rfl⟩
  constructor
  · exact h.inSequence.call c
  · intro entry hentry
    rw [hcount]
    rcases hqueue entry hentry with hold | ⟨hseq, hzero⟩
    · exact h.counted entry hold
    · -- the number is new, so it was never returned
      have hnever : SenderEvent.expired entry.seq ∉ log := by
        intro hmem
        have hlt := h.below entry.seq hmem
        omega
      rw [hzero, List.count_eq_zero_of_not_mem hnever]
  · intro entry hentry
    rcases hqueue entry hentry with hold | ⟨-, hzero⟩
    · exact h.bounded entry hold
    · rw [hzero]
      exact Nat.zero_le _
  · intro seq hseq
    have hmem : SenderEvent.expired seq ∈ log := by
      rw [← List.count_pos_iff, ← hcount seq, List.count_pos_iff]
      exact hseq
    exact (h.below seq hmem).trans (Nat.lt_succ_self _)

/-! ## One timeout check -/

/-- Some entry is due and has been returned as often as the limit allows. -/
def Spent (s : ReliableSession) (now : Instant) : Prop :=
  ∃ entry ∈ s.retransmitQueue, entry.rtoDeadline ≤ now ∧ entry.retryCount = s.maxRetries

theorem Retried.exhausted_iff (h : s.Retried log) (now : Instant) :
    s.Exhausted now ↔ s.Spent now := by
  constructor
  · rintro ⟨entry, hentry, hdue, hlimit⟩
    have hle := h.bounded entry hentry
    exact ⟨entry, hentry, hdue, by omega⟩
  · rintro ⟨entry, hentry, hdue, hlimit⟩
    exact ⟨entry, hentry, hdue, by omega⟩

theorem checkRto_of_exhausted {now : Instant} (hactive : s.state = .active)
    (h : s.Exhausted now) :
    (s.checkRto now).2 = [] ∧ (s.checkRto now).1.state = .dead ∧
      (s.checkRto now).1.retransmitQueue = [] := by
  have hkill := (scanRto_kill_iff now s.rtoBaseMs s.maxRetries s.retransmitQueue).mpr h
  rw [checkRto, if_neg (not_ne_iff.mpr hactive)]
  dsimp only
  rw [if_pos hkill]
  exact ⟨rfl, rfl, rfl⟩

theorem checkRto_of_not_exhausted {now : Instant} (hactive : s.state = .active)
    (h : ¬ s.Exhausted now) :
    (s.checkRto now).2 =
        (s.retransmitQueue.filter fun entry => entry.rtoDeadline ≤ now).map RetransmitEntry.seq ∧
      (s.checkRto now).1.state = .active ∧
      (s.checkRto now).1.retransmitQueue = s.retransmitQueue.map fun entry =>
        if entry.rtoDeadline ≤ now then entry.retried now s.rtoBaseMs (entry.retryCount + 1)
        else entry := by
  have hlimit : ∀ entry ∈ s.retransmitQueue, entry.rtoDeadline ≤ now →
      entry.retryCount + 1 ≤ s.maxRetries := by
    intro entry hentry hdue
    by_contra hspent
    exact h ⟨entry, hentry, hdue, Nat.not_le.mp hspent⟩
  rw [checkRto, if_neg (not_ne_iff.mpr hactive), scanRto_eq hlimit]
  dsimp only
  rw [if_neg Bool.false_ne_true]
  refine ⟨rfl, ?_, ?_⟩
  · split_ifs <;> exact hactive
  · split_ifs <;> rfl

theorem Retried.call_checkRto (h : s.Retried log) (now : Instant) :
    (s.call (.checkRto now)).1.Retried (log ++ (s.call (.checkRto now)).2) := by
  have hsequence := h.inSequence.call (.checkRto now)
  have hmax := (s.limits_call (.checkRto now)).1
  rw [ReliableSession.call_checkRto] at hsequence hmax
  cases hstate : s.state with
  | dead =>
    have hsame : s.checkRto now = (s, []) := if_pos (by rw [hstate]; intro hc; cases hc)
    rw [ReliableSession.call_checkRto, hsame, List.map_nil, List.append_nil]
    exact h
  | active =>
    by_cases hexhausted : s.Exhausted now
    · obtain ⟨hnone, -, hempty⟩ := checkRto_of_exhausted hstate hexhausted
      apply h.of_sublist rfl
      · rw [ReliableSession.call_checkRto, hempty]
        exact List.nil_sublist _
      · rw [ReliableSession.call_checkRto, hnone]
        exact fun _ => List.not_mem_nil
    · obtain ⟨hseqs, -, hqueue⟩ := checkRto_of_not_exhausted hstate hexhausted
      have hmem : ∀ entry ∈ (s.checkRto now).1.retransmitQueue, ∃ old ∈ s.retransmitQueue,
          entry.seq = old.seq ∧
            entry.retryCount = old.retryCount + if old.rtoDeadline ≤ now then 1 else 0 := by
        intro entry hentry
        rw [hqueue] at hentry
        obtain ⟨old, hold, rfl⟩ := List.mem_map.mp hentry
        refine ⟨old, hold, ?_⟩
        by_cases hdue : old.rtoDeadline ≤ now
        · rw [if_pos hdue, if_pos hdue]
          exact ⟨old.seq_reschedule _ _, old.retryCount_reschedule _ _⟩
        · rw [if_neg hdue, if_neg hdue]
          exact ⟨rfl, rfl⟩
      rw [ReliableSession.call_checkRto]
      constructor
      · exact hsequence
      · intro entry hentry
        obtain ⟨old, hold, hseq, hcount⟩ := hmem entry hentry
        rw [List.count_append, List.count_map_of_injective _ _ expired_injective, hseqs, hseq,
          count_due h.nodup hold, ← h.counted old hold]
        exact hcount
      · intro entry hentry
        obtain ⟨old, hold, -, hcount⟩ := hmem entry hentry
        have hle := h.bounded old hold
        rw [hmax, hcount]
        split_ifs with hdue
        · by_contra hlimit
          exact hexhausted ⟨old, hold, hdue, Nat.not_le.mp hlimit⟩
        · exact hle
      · intro seq hseq
        rw [checkRto_nextSeq]
        rcases List.mem_append.mp hseq with hlog | hnew
        · exact h.below seq hlog
        · rw [hseqs, List.mem_map_of_injective expired_injective] at hnew
          obtain ⟨entry, hentry, rfl⟩ := List.mem_map.mp hnew
          exact h.seq_lt (List.mem_of_mem_filter hentry)

theorem Retried.call (h : s.Retried log) (c : SenderCall) :
    (s.call c).1.Retried (log ++ (s.call c).2) := by
  cases c with
  | assignSeq now frame isFireAndForget opaqueId =>
    exact h.call_assignSeq now frame isFireAndForget opaqueId
  | processAck now ack =>
    apply h.of_sublist rfl
    · rw [ReliableSession.call, processAck_retransmitQueue]
      exact List.filter_sublist
    · exact fun _ => List.not_mem_nil
  | processAckForFastRetransmit ack =>
    apply h.of_sublist rfl
    · rw [call_processAckForFastRetransmit, processAckForFastRetransmit_retransmitQueue]
    · intro seq hseq
      simp [call_processAckForFastRetransmit] at hseq
  | completeRequest opaqueId =>
    apply h.of_sublist rfl
    · exact List.eraseP_sublist
    · exact fun _ => List.not_mem_nil
  | onNewAck => exact h.of_sublist rfl (List.Sublist.refl _) fun _ => List.not_mem_nil
  | onLoss => exact h.of_sublist rfl (List.Sublist.refl _) fun _ => List.not_mem_nil
  | checkRto now => exact h.call_checkRto now
  | kill => exact h.of_sublist rfl (List.nil_sublist _) fun _ => List.not_mem_nil

/-- What a timeout check on an active session does, in terms of the numbers returned by
the earlier calls. -/
structure RtoChecked (s : ReliableSession) (log : List SenderEvent) (now : Instant) : Prop where
  safe : s.checkRto? now = some (s.checkRto now)
  spent : s.Spent now → (s.checkRto now).2 = [] ∧ (s.checkRto now).1.state = .dead ∧
    (s.checkRto now).1.retransmitQueue = []
  returned : ¬ s.Spent now → (s.checkRto now).1.state = .active ∧
    (s.checkRto now).2 =
      (s.retransmitQueue.filter fun entry => entry.rtoDeadline ≤ now).map RetransmitEntry.seq
  backed_off : ¬ s.Spent now → (s.checkRto now).1.retransmitQueue =
    s.retransmitQueue.map fun entry =>
      if entry.rtoDeadline ≤ now then
        entry.retried now s.rtoBaseMs (log.count (.expired entry.seq) + 1)
      else entry

/-- A check that returns a number halves the threshold and closes the window; one that
returns none leaves both alone. -/
structure WindowChecked (s : ReliableSession) (now : Instant) : Prop where
  loss : (s.checkRto now).2 ≠ [] →
    (s.checkRto now).1.ssthresh.toNat = max (s.cwnd.toNat / 2) 2 ∧ (s.checkRto now).1.cwnd = 1
  calm : (s.checkRto now).2 = [] →
    (s.checkRto now).1.ssthresh = s.ssthresh ∧ (s.checkRto now).1.cwnd = s.cwnd

theorem ssthresh_onLoss (s : ReliableSession) :
    s.onLoss.ssthresh.toNat = max (s.cwnd.toNat / 2) 2 := by
  have hhalf : (s.cwnd / 2).toNat = s.cwnd.toNat / 2 := UInt32.toNat_div _ _
  change (if s.cwnd / 2 < 2 then 2 else s.cwnd / 2).toNat = max (s.cwnd.toNat / 2) 2
  split_ifs with h
  · have hlt : (s.cwnd / 2).toNat < 2 := h
    rw [hhalf] at hlt
    exact (max_eq_right hlt.le).symm
  · have hle : 2 ≤ (s.cwnd / 2).toNat := Nat.not_lt.mp h
    rw [hhalf] at hle ⊢
    exact (max_eq_left hle).symm

theorem windowChecked (s : ReliableSession) (now : Instant) : s.WindowChecked now := by
  have hcalm : ∀ s', s.checkRto now = (s', []) →
      s'.ssthresh = s.ssthresh ∧ s'.cwnd = s.cwnd → s.WindowChecked now := by
    intro s' heq hsame
    constructor
    · intro hreturned
      exact absurd (congrArg Prod.snd heq) hreturned
    · intro _
      rw [heq]
      exact hsame
  rcases s.checkRto_cases now with
    ⟨-, heq⟩ | ⟨-, -, heq⟩ | ⟨-, -, -, heq⟩ | ⟨-, -, hreturned, heq⟩
  · exact hcalm _ heq ⟨rfl, rfl⟩
  · exact hcalm _ heq ⟨rfl, rfl⟩
  · exact hcalm _ heq ⟨rfl, rfl⟩
  · constructor
    · intro _
      rw [heq]
      exact ⟨ssthresh_onLoss _, rfl⟩
    · intro hnone
      rw [heq] at hnone
      exact absurd hnone hreturned

theorem Retried.rtoChecked (h : s.Retried log) (hactive : s.state = .active)
    (hmax : s.maxRetries < 2 ^ 32 - 1)
    (hbackoff : ∀ k ≤ s.maxRetries, s.rtoBaseMs * 2 ^ min k 10 < 2 ^ 64) (now : Instant) :
    s.RtoChecked log now := by
  constructor
  · rw [checkRto?, checkRto, scanRto?_eq hmax hbackoff h.bounded]
    rw [if_neg (not_ne_iff.mpr hactive), if_neg (not_ne_iff.mpr hactive)]
    simp only [Option.bind_eq_bind, Option.bind_some]
    split_ifs <;> rfl
  · intro hspent
    exact checkRto_of_exhausted hactive ((h.exhausted_iff now).mpr hspent)
  · intro hspent
    obtain ⟨hseqs, hstate, -⟩ :=
      checkRto_of_not_exhausted hactive (mt (h.exhausted_iff now).mp hspent)
    exact ⟨hstate, hseqs⟩
  · intro hspent
    obtain ⟨-, -, hqueue⟩ := checkRto_of_not_exhausted hactive (mt (h.exhausted_iff now).mp hspent)
    rw [hqueue]
    apply List.map_congr_left
    intro entry hentry
    rw [h.counted entry hentry]

/-- In every state that calls lead to, the retries are counted and bounded, and the next
timeout check does what the counts say. -/
theorem bounded_retries_with_backoff (localNode remoteNode : UInt16) (epoch : UInt32)
    {rtoBaseMs maxRetries : ℕ} (initialCredits : UInt32) (calls : List SenderCall)
    (hmax : maxRetries < 2 ^ 32 - 1)
    (hbackoff : ∀ k ≤ maxRetries, rtoBaseMs * 2 ^ min k 10 < 2 ^ 64) :
    let start := new localNode remoteNode epoch rtoBaseMs maxRetries initialCredits
    let s := (Runs.run call start calls).1
    let log := (Runs.run call start calls).2
    (s.maxRetries = maxRetries ∧ s.rtoBaseMs = rtoBaseMs) ∧
      (∀ entry ∈ s.retransmitQueue,
        entry.retryCount = log.count (.expired entry.seq) ∧ entry.retryCount ≤ maxRetries) ∧
      (∀ now, s.state = .active → s.RtoChecked log now) ∧
      (∀ now, s.state = .dead → s.checkRto now = (s, [])) ∧
      ∀ now, s.WindowChecked now := by
  intro start s log
  have hstart : (start.maxRetries = maxRetries ∧ start.rtoBaseMs = rtoBaseMs) ∧
      start.Retried [] := ⟨⟨rfl, rfl⟩, retried_new _ _ _ _ _ _⟩
  obtain ⟨hlimits, hretried⟩ : (s.maxRetries = maxRetries ∧ s.rtoBaseMs = rtoBaseMs) ∧
      s.Retried log :=
    Runs.run_always
      (I := fun (s : ReliableSession) log =>
        (s.maxRetries = maxRetries ∧ s.rtoBaseMs = rtoBaseMs) ∧ s.Retried log)
      (fun s log c h => ⟨⟨(s.limits_call c).1.trans h.1.1, (s.limits_call c).2.trans h.1.2⟩,
        h.2.call c⟩)
      hstart calls
  refine ⟨hlimits, ?_, ?_, ?_, s.windowChecked⟩
  · intro entry hentry
    exact ⟨hretried.counted entry hentry, hlimits.1 ▸ hretried.bounded entry hentry⟩
  · intro now hactive
    apply hretried.rtoChecked hactive
    · rw [hlimits.1]
      exact hmax
    · rw [hlimits.1, hlimits.2]
      exact hbackoff
  · intro now hdead
    apply if_pos
    rw [hdead]
    intro h
    cases h

theorem bounded_retries_with_backoff_once :
    let run := Runs.run call (new 1 2 5 200 2 4) [.assignSeq 0 [] true 0, .checkRto 1000000000]
    run.2 = [.assigned 1, .expired 1] ∧ run.1.state = .active ∧
      run.1.retransmitQueue.map RetransmitEntry.retryCount = [1] ∧
      (∀ entry ∈ run.1.retransmitQueue,
        entry.retryCount = run.2.count (.expired entry.seq) ∧ entry.retryCount ≤ 2) ∧
      run.1.RtoChecked run.2 1400000000 := by
  intro run
  have hbackoff : ∀ k ≤ 2, 200 * 2 ^ min k 10 < 2 ^ 64 := by decide
  obtain ⟨-, hcounts, hchecked, -, -⟩ := bounded_retries_with_backoff 1 2 5 4
    [.assignSeq 0 [] true 0, .checkRto 1000000000] (by decide : 2 < 2 ^ 32 - 1) hbackoff
  exact ⟨by decide, rfl, by decide, hcounts, hchecked 1400000000 rfl⟩

end ReliableSession
end UniBus.Transport
