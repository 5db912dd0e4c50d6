import UniBus.Core.JettyQueues
import UniBus.Foundations.Threads

/-!
# Closing a Jetty that others still hold

Whoever holds a reference to a Jetty may go on using it while it is closed and
after that. Each queue has a lock of its own: `post_send` looks at the completion
queue before it takes the lock of the send queue, and `close` empties the queues
one after the other. The steps of all holders interleave. What a holder pops is the
holder's to complete; everything else that was accepted is answered by `close`.
-/
namespace UniBus

/-- Where the call of `close` that sets the flag stands. -/
inductive ClosePhase
  | pending
  | marked
  /-- The send queue is flushed; its lock and that of the completion queue are held. -/
  | flushing
  | done
  deriving DecidableEq, Repr

structure SharedJetty where
  jetty : FullJetty
  phase : ClosePhase
  deriving DecidableEq, Repr

/-- What a holder is in the middle of. -/
inductive HolderPhase
  | idle
  /-- A `post_send` that found the completion queue below its watermark. -/
  | checked (wr : WorkRequest)
  deriving DecidableEq, Repr

abbrev Holders (ι : Type) := Threads.Pool ι SharedJetty HolderPhase

inductive HolderInput (ι : Type)
  /-- A holder begins an operation; all but `post_send` are one step. -/
  | call (i : ι) (op : QueueOp)
  /-- A `post_send` goes on to the send queue. -/
  | proceed (i : ι)
  | close
  /-- The next step of `close`. -/
  | flush
  deriving DecidableEq, Repr

namespace SharedJetty

variable (s : SharedJetty)

/-- A call of `close`; one that comes later waits for the first and does nothing. -/
def close : SharedJetty :=
  match s.phase with
  | .pending => ⟨{ s.jetty with closed := true }, .marked⟩
  | _ => s

def flush : SharedJetty :=
  match s.phase with
  | .marked => ⟨s.jetty.flushJfs, .flushing⟩
  | .flushing => ⟨s.jetty.flushJfr, .done⟩
  | _ => s

/-- What the next step of `close` takes out of its queue, each with its completion. -/
def flushed : List QueueEvent :=
  match s.phase with
  | .marked => s.jetty.jfs.map fun wr => .sendFlushed wr (s.jetty.flushedCqe wr.wrId wr.verb)
  | .flushing => s.jetty.jfr.map fun buf => .recvFlushed buf (s.jetty.flushedCqe buf.wrId .send)
  | _ => []

/-- The operation has to wait for a lock that `close` holds. -/
def blocks : QueueOp → Bool
  | .postRecv .. | .popRecv => false
  | _ => s.phase == .flushing

/-- The step of an operation that one lock covers. -/
def operate (op : QueueOp) : SharedJetty × List QueueEvent :=
  if s.blocks op then (s, [])
  else ({ s with jetty := (s.jetty.step op).1 }, (s.jetty.step op).2)

def begin (op : QueueOp) : HolderPhase → SharedJetty × HolderPhase × List QueueEvent
  | .checked wr => (s, .checked wr, [])
  | .idle =>
    match op with
    | .postSend wr =>
      if !s.blocks op && s.jetty.belowWatermark then (s, .checked wr, []) else (s, .idle, [])
    | op => ((s.operate op).1, .idle, (s.operate op).2)

def proceed : HolderPhase → SharedJetty × HolderPhase × List QueueEvent
  | .idle => (s, .idle, [])
  | .checked wr =>
    if s.blocks (.postSend wr) then (s, .checked wr, [])
    else
      match s.jetty.pushSend wr with
      | .ok jetty => ({ s with jetty }, .idle, [.sendPosted wr])
      | .error _ => (s, .idle, [])

def Drained : Prop := s.jetty.jfs = [] ∧ s.jetty.jfr = []

end SharedJetty

open QueueEvent

/-- What is flushed gets the completion of its own identifier and verb. -/
def QueueEvent.Paid : QueueEvent → Prop
  | .sendFlushed wr cqe => cqe.wrId = wr.wrId ∧ cqe.verb = wr.verb ∧ cqe.status = ubErrFlushed
  | .recvFlushed buf cqe => cqe.wrId = buf.wrId ∧ cqe.verb = .send ∧ cqe.status = ubErrFlushed
  | _ => True

namespace Holders

variable {ι : Type} [DecidableEq ι]

def new (handle : UInt32) (nodeId : UInt16) (config : JettyConfig) : Holders ι :=
  ⟨⟨.new handle nodeId config, .pending⟩, fun _ => .idle⟩

def step (p : Holders ι) : HolderInput ι → Holders ι × List QueueEvent
  | .call i op => p.turn i fun s phase => s.begin op phase
  | .proceed i => p.turn i fun s phase => s.proceed phase
  | .close => ({ p with shared := p.shared.close }, [])
  | .flush => ({ p with shared := p.shared.flush }, p.shared.flushed)

/-- Nothing is queued, and every work request and buffer that was ever accepted has been
popped by a holder or flushed; the completions of those flushed are in the completion
queue, or polled. -/
structure Settled (p : Holders ι) (log : List QueueEvent) : Prop where
  drained : p.shared.Drained
  sends : log.filterMap sendIn = log.filterMap sendOut
  recvs : log.filterMap recvIn = log.filterMap recvOut
  cqes : log.filterMap cqeIn = log.filterMap cqeOut ++ p.shared.jetty.jfc
  paid : ∀ e ∈ log, e.Paid

/-- A `post_recv`, or a `post_send` past its watermark check, that finds room in its queue. -/
def FindsRoom (p : Holders ι) : HolderInput ι → Prop
  | .call i (.postRecv ..) =>
    p.thread i = .idle ∧ p.shared.jetty.jfr.length < p.shared.jetty.jfrDepth.toNat
  | .proceed i =>
    p.thread i ≠ .idle ∧ p.shared.jetty.jfs.length < p.shared.jetty.jfsDepth.toNat
  | _ => False

end Holders

/-! ## What a step does to the queues -/

theorem FullJetty.paid_step (j : FullJetty) (op : QueueOp) : ∀ e ∈ (j.step op).2, e.Paid := by
  rw [j.log_step]
  cases op with
  | postSend wr | postRecv buf wrId | pushCqe cqe =>
    intro e he
    simp only [FullJetty.served] at he
    split_ifs at he
    · rw [List.mem_singleton.mp he]
      trivial
    · exact absurd he List.not_mem_nil
  | popSend | popRecv | pollCqe =>
    intro e he
    rw [FullJetty.served, Option.mem_toList] at he
    obtain ⟨_, -, rfl⟩ := Option.mem_map.mp he
    trivial

/-- A step of a holder, with what it lets into and out of the queues. -/
structure SharedJetty.Follows (s s' : SharedJetty) (events : List QueueEvent) : Prop where
  phase : s'.phase = s.phase
  carries : s.jetty.Carries s'.jetty events
  paid : ∀ e ∈ events, e.Paid
  locked : s.phase = .flushing → s'.jetty.jfs = s.jetty.jfs

namespace SharedJetty

variable {s : SharedJetty}

theorem Follows.refl (s : SharedJetty) : s.Follows s [] :=
  ⟨rfl, .refl _, fun _ he => absurd he List.not_mem_nil, fun _ => rfl⟩

theorem follows_operate (op : QueueOp) : s.Follows (s.operate op).1 (s.operate op).2 := by
  unfold operate
  split_ifs with hblocks
  · exact .refl s
  · refine ⟨rfl, (s.jetty.moves_step op).toCarries, s.jetty.paid_step op, ?_⟩
    intro hphase
    cases op with
    | postRecv buf wrId =>
      simp only [FullJetty.step, FullJetty.postRecv, Jetty.postRecv]
      split_ifs <;> rfl
    | popRecv =>
      simp only [FullJetty.step, FullJetty.popRecv, Jetty.popRecv]
      split <;> rfl
    | _ => simp [blocks, hphase] at hblocks

theorem follows_begin (op : QueueOp) (phase : HolderPhase) :
    s.Follows (s.begin op phase).1 (s.begin op phase).2.2 := by
  cases phase with
  | checked wr => exact .refl s
  | idle =>
    cases op with
    | postSend wr =>
      simp only [begin]
      split_ifs <;> exact .refl s
    | _ => exact follows_operate _

theorem follows_proceed (phase : HolderPhase) :
    s.Follows (s.proceed phase).1 (s.proceed phase).2.2 := by
  cases phase with
  | idle => exact .refl s
  | checked wr =>
    simp only [proceed, FullJetty.pushSend]
    split_ifs with hblocks hfull
    · exact .refl s
    · exact .refl s
    · refine ⟨rfl, ⟨rfl, List.append_nil _, List.append_nil _⟩, ?_, ?_⟩
      · intro e he
        rw [List.mem_singleton.mp he]
        trivial
      · intro hphase
        simp [blocks, hphase] at hblocks

theorem carries_flush (s : SharedJetty) : s.jetty.Carries s.flush.jetty s.flushed := by
  cases hphase : s.phase with
  | marked =>
    simp only [flush, flushed, hphase]
    constructor
    · simp [List.filterMap_map, Function.comp_def, sendIn, sendOut, FullJetty.flushJfs]
    · simp [List.filterMap_map, Function.comp_def, recvIn, recvOut, FullJetty.flushJfs]
    · simp [List.filterMap_map, Function.comp_def, cqeIn, cqeOut, FullJetty.jfc_flushJfs]
  | flushing =>
    simp only [flush, flushed, hphase]
    constructor
    · simp [List.filterMap_map, Function.comp_def, sendIn, sendOut, FullJetty.flushJfr]
    · simp [List.filterMap_map, Function.comp_def, recvIn, recvOut, FullJetty.flushJfr]
    · simp [List.filterMap_map, Function.comp_def, cqeIn, cqeOut, FullJetty.jfc_flushJfr]
  | pending | done =>
    simp only [flush, flushed, hphase]
    exact .refl _

theorem paid_flushed (s : SharedJetty) : ∀ e ∈ s.flushed, e.Paid := by
  unfold flushed
  split
  · simp [QueueEvent.Paid, FullJetty.flushedCqe]
  · simp [QueueEvent.Paid, FullJetty.flushedCqe]
  · simp

/-- The steps of `close` with nothing in between. -/
theorem close_alone (hpending : s.phase = .pending) (hopen : s.jetty.closed = false) :
    s.close.flush.flush = ⟨s.jetty.close, .done⟩ := by
  simp [close, flush, hpending, FullJetty.close, hopen]

theorem drained_operate {op : QueueOp} (h : s.Drained) (hsend : ∀ wr, op ≠ .postSend wr)
    (hrecv : ∀ buf wrId, op ≠ .postRecv buf wrId) : (s.operate op).1.Drained := by
  obtain ⟨hjfs, hjfr⟩ := h
  unfold operate
  split_ifs with hblocks
  · exact ⟨hjfs, hjfr⟩
  · cases op with
    | postSend wr => exact absurd rfl (hsend wr)
    | postRecv buf wrId => exact absurd rfl (hrecv buf wrId)
    | popSend => simp [Drained, FullJetty.step, FullJetty.popSend, FullJetty.take, hjfs, hjfr]
    | popRecv =>
      simp [Drained, FullJetty.step, FullJetty.popRecv, Jetty.popRecv, FullJetty.take, hjfs, hjfr]
    | pushCqe cqe =>
      simp only [Drained, FullJetty.step, FullJetty.pushCqe, Jetty.pushCqe]
      split_ifs <;> exact ⟨hjfs, hjfr⟩
    | pollCqe =>
      simp only [Drained, FullJetty.step, FullJetty.pollCqe, Jetty.pollCqe]
      split <;> exact ⟨hjfs, hjfr⟩

theorem drained_postRecv_iff (h : s.Drained) (buf : List UInt8) (wrId : UInt64) :
    (s.operate (.postRecv buf wrId)).1.Drained ↔
      ¬s.jetty.jfr.length < s.jetty.jfrDepth.toNat := by
  rw [operate, if_neg (by simp [blocks])]
  simp only [FullJetty.step, FullJetty.postRecv, Jetty.postRecv]
  split_ifs with hfull
  · exact iff_of_true h (by omega)
  · exact iff_of_false (by simp [Drained, FullJetty.accept, Except.map]) (by omega)

theorem drained_pushSend_iff (h : s.Drained) (hdone : s.phase = .done) (wr : WorkRequest) :
    (s.proceed (.checked wr)).1.Drained ↔ ¬s.jetty.jfs.length < s.jetty.jfsDepth.toNat := by
  rw [proceed, if_neg (by simp [blocks, hdone]), FullJetty.pushSend]
  split_ifs with hfull
  · exact iff_of_true h (by omega)
  · exact iff_of_false (by simp [Drained]) (by omega)

end SharedJetty

namespace Holders

variable {ι : Type} [DecidableEq ι] {p : Holders ι} {log : List QueueEvent}

theorem drained_step_iff (h : p.shared.Drained) (hdone : p.shared.phase = .done)
    (input : HolderInput ι) : (p.step input).1.shared.Drained ↔ ¬p.FindsRoom input := by
  cases input with
  | call i op =>
    rw [step, Threads.Pool.turn_shared]
    cases hthread : p.thread i with
    | checked wr =>
      refine iff_of_true h fun hroom => ?_
      cases op <;> simp [FindsRoom, hthread] at hroom
    | idle =>
      cases op with
      | postSend wr =>
        simp only [SharedJetty.begin]
        split_ifs <;> exact iff_of_true h id
      | postRecv buf wrId =>
        have hroom := SharedJetty.drained_postRecv_iff h buf wrId
        simpa only [SharedJetty.begin, FindsRoom, hthread, true_and] using hroom
      | popSend | popRecv | pushCqe cqe | pollCqe =>
        exact iff_of_true (SharedJetty.drained_operate h (fun _ h => by cases h)
          fun _ _ h => by cases h) id
  | proceed i =>
    rw [step, Threads.Pool.turn_shared]
    cases hthread : p.thread i with
    | idle => exact iff_of_true h fun hroom => hroom.1 hthread
    | checked wr =>
      have hroom := SharedJetty.drained_pushSend_iff h hdone wr
      simpa [FindsRoom, hthread] using hroom
  | close =>
    refine iff_of_true ?_ id
    simpa only [step, SharedJetty.close, hdone] using h
  | flush =>
    refine iff_of_true ?_ id
    simpa only [step, SharedJetty.flush, hdone] using h

/-- The send queue is empty from its flush on, the receive queue at the end; the log
accounts for all that came into the queues. -/
structure Closing (p : Holders ι) (log : List QueueEvent) : Prop where
  conserved : FullJetty.Conserved log p.shared.jetty
  paid : ∀ e ∈ log, e.Paid
  flushing : p.shared.phase = .flushing → p.shared.jetty.jfs = []
  done : p.shared.phase = .done → p.shared.Drained

omit [DecidableEq ι] in
theorem Closing.new (handle : UInt32) (nodeId : UInt16) (config : JettyConfig) :
    (new handle nodeId config : Holders ι).Closing [] := by
  constructor
  · constructor <;> rfl
  · exact fun _ he => absurd he List.not_mem_nil
  · intro h
    cases h
  · intro h
    cases h

omit [DecidableEq ι] in
/-- Apart from the emptiness at the end, every step of a holder keeps all of it. -/
theorem Closing.of_follows {q : Holders ι} {events : List QueueEvent} (h : p.Closing log)
    (hfollows : p.shared.Follows q.shared events)
    (hdone : q.shared.phase = .done → q.shared.Drained) : q.Closing (log ++ events) := by
  refine ⟨h.conserved.append hfollows.carries, ?_, ?_, hdone⟩
  · intro e he
    rcases List.mem_append.mp he with he | he
    · exact h.paid e he
    · exact hfollows.paid e he
  · intro hphase
    rw [hfollows.phase] at hphase
    rw [hfollows.locked hphase]
    exact h.flushing hphase

omit [DecidableEq ι] in
theorem Closing.close (h : p.Closing log) : Closing { p with shared := p.shared.close } log := by
  unfold SharedJetty.close
  split
  · refine ⟨⟨h.conserved.jfs, h.conserved.jfr, h.conserved.jfc⟩, h.paid, ?_, ?_⟩
    · intro hphase
      cases hphase
    · intro hphase
      cases hphase
  · exact h

omit [DecidableEq ι] in
theorem Closing.flush (h : p.Closing log) :
    Closing { p with shared := p.shared.flush } (log ++ p.shared.flushed) := by
  refine ⟨h.conserved.append p.shared.carries_flush, ?_, ?_, ?_⟩
  · intro e he
    rcases List.mem_append.mp he with he | he
    · exact h.paid e he
    · exact p.shared.paid_flushed e he
  · cases hphase : p.shared.phase with
    | marked =>
      simp only [SharedJetty.flush, hphase]
      exact fun _ => rfl
    | flushing | pending | done =>
      simp only [SharedJetty.flush, hphase]
      intro hflushing
      cases hflushing
  · cases hphase : p.shared.phase with
    | flushing =>
      simp only [SharedJetty.flush, hphase]
      exact fun _ => ⟨h.flushing hphase, rfl⟩
    | done =>
      simp only [SharedJetty.flush, hphase]
      exact fun _ => h.done hphase
    | pending | marked =>
      simp only [SharedJetty.flush, hphase]
      intro hdone
      cases hdone

theorem Closing.step (h : p.Closing log) {input : HolderInput ι}
    (hdone : (p.step input).1.shared.phase = .done → (p.step input).1.shared.Drained) :
    (p.step input).1.Closing (log ++ (p.step input).2) := by
  cases input with
  | call i op => exact h.of_follows (SharedJetty.follows_begin op (p.thread i)) hdone
  | proceed i => exact h.of_follows (SharedJetty.follows_proceed (p.thread i)) hdone
  | close => simpa only [Holders.step, List.append_nil] using h.close
  | flush => exact h.flush

omit [DecidableEq ι] in
theorem Closing.settled (h : p.Closing log) (hdone : p.shared.phase = .done) :
    p.Settled log := by
  have hdrained := h.done hdone
  refine ⟨hdrained, ?_, ?_, h.conserved.jfc, h.paid⟩
  · rw [h.conserved.jfs, hdrained.1, List.append_nil]
  · rw [h.conserved.jfr, hdrained.2, List.append_nil]

/-- The phase changes by `close` alone. -/
theorem Closing.drained_of_not_findsRoom (h : p.Closing log) {input : HolderInput ι}
    (hroom : p.shared.phase = .done → ¬p.FindsRoom input)
    (hdone : (p.step input).1.shared.phase = .done) : (p.step input).1.shared.Drained := by
  by_cases hphase : p.shared.phase = .done
  · exact (drained_step_iff (h.done hphase) hphase input).mpr (hroom hphase)
  · cases input with
    | call i op => exact absurd ((SharedJetty.follows_begin op _).phase.symm.trans hdone) hphase
    | proceed i => exact absurd ((SharedJetty.follows_proceed _).phase.symm.trans hdone) hphase
    | close => exact h.close.done hdone
    | flush => exact h.flush.done hdone

theorem phase_step_of_done (hdone : p.shared.phase = .done) (input : HolderInput ι) :
    (p.step input).1.shared.phase = .done := by
  cases input with
  | call i op => exact (SharedJetty.follows_begin op _).phase.trans hdone
  | proceed i => exact (SharedJetty.follows_proceed _).phase.trans hdone
  | close => simp only [step, SharedJetty.close, hdone]
  | flush => simp only [step, SharedJetty.flush, hdone]

theorem Closing.settled_iff (h : p.Closing log) (input : HolderInput ι) :
    (p.shared.phase = .done → ¬p.FindsRoom input) ↔
      ((p.step input).1.shared.phase = .done →
        (p.step input).1.Settled (log ++ (p.step input).2)) := by
  constructor
  · intro hroom
    exact (h.step (h.drained_of_not_findsRoom hroom)).settled
  · intro hsettled hdone
    exact (drained_step_iff (h.done hdone) hdone input).mp
      (hsettled (phase_step_of_done hdone input)).drained

/-- In every state of a run after `close` is through, nothing is queued on the Jetty and
each work request and buffer accepted so far was popped or got its completion, just in
case no holder's post finds room in its queue after that. -/
theorem closed_jetty_settled_iff (handle : UInt32) (nodeId : UInt16) (config : JettyConfig)
    (inputs : List (HolderInput ι)) :
    Runs.Meets step (fun p log input => (p.step input).1.shared.phase = .done →
        (p.step input).1.Settled (log ++ (p.step input).2))
        (new handle nodeId config : Holders ι) [] inputs ↔
      Runs.Meets step (fun p _ input => p.shared.phase = .done → ¬p.FindsRoom input)
        (new handle nodeId config : Holders ι) [] inputs := by
  symm
  exact Runs.meets_iff (I := fun (p : Holders ι) log => p.Closing log)
    (fun p log input h => h.settled_iff input)
    (fun p log input h hroom => h.step (h.drained_of_not_findsRoom hroom))
    (Closing.new handle nodeId config) inputs

/-- A buffer posted on a closed Jetty stays in its queue, also through another `close`. -/
theorem buffer_posted_after_close :
    let start : Holders (Fin 2) := new 1 1 ⟨4, 4, 4, 4⟩
    let closed := Runs.run step start [.close, .flush, .flush]
    let posted := Runs.run step closed.1 [.call 0 (.postRecv [1] 7)]
    let again := Runs.run step posted.1 [.close, .flush, .flush]
    closed.1.shared.phase = .done ∧ closed.1.shared.jetty.closed = true ∧
      posted.2 = [.recvPosted ⟨[1], 7⟩] ∧ posted.1.shared.jetty.jfr = [⟨[1], 7⟩] ∧
      again.1.shared = posted.1.shared ∧ again.2 = [] ∧
      again.1.shared.jetty.jfc = [] := by
  decide

end Holders
end UniBus
