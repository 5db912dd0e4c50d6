import UniBus.Core.Addr
import UniBus.Core.Jetty
import UniBus.Foundations.Runs

/-!
# The three queues of a Jetty

A Jetty with its send queue, the back-pressure that a full completion queue puts
on it, and closing, which turns whatever is still queued into completions. What
has entered a queue is what has left it followed by what it holds, in order.
-/
namespace UniBus

structure WorkRequest where
  wrId : UInt64
  dstJetty : JettyAddr
  data : List UInt8
  imm : Option UInt64
  verb : Verb
  ubAddr : Option UbAddr
  mrHandle : Option UInt32
  deriving DecidableEq, Repr

structure JettyConfig where
  jfsDepth : UInt32
  jfrDepth : UInt32
  jfcDepth : UInt32
  jfcHighWatermark : UInt32
  deriving DecidableEq, Repr

/-- A Jetty with its send queue and the mark that it is closed. -/
structure FullJetty extends Jetty where
  /-- Posted work requests. -/
  jfs : List WorkRequest
  jfsDepth : UInt32
  jfcHighWatermark : UInt32
  closed : Bool
  deriving DecidableEq, Repr

namespace FullJetty

def new (handle : UInt32) (nodeId : UInt16) (config : JettyConfig) : FullJetty where
  handle := handle
  nodeId := nodeId
  jfr := []
  jfc := []
  jfrDepth := config.jfrDepth
  jfcDepth := config.jfcDepth
  jfs := []
  jfsDepth := config.jfsDepth
  jfcHighWatermark := config.jfcHighWatermark
  closed := false

variable (j : FullJetty)

def postRecv (buf : List UInt8) (wrId : UInt64) : Except UbError FullJetty :=
  (j.toJetty.postRecv buf wrId).map fun jetty => { j with toJetty := jetty }

/-- The completion queue is below its watermark. -/
def belowWatermark : Bool := decide (j.jfc.length < j.jfcHighWatermark.toNat)

/-- The part of `post_send` under the lock of the send queue. -/
def pushSend (wr : WorkRequest) : Except UbError FullJetty :=
  if j.jfs.length ≥ j.jfsDepth.toNat then .error .noResources
  else .ok { j with jfs := j.jfs ++ [wr] }

def postSend (wr : WorkRequest) : Except UbError FullJetty :=
  if j.belowWatermark then j.pushSend wr else .error .noResources

def popSend : Option (WorkRequest × FullJetty) :=
  match j.jfs with
  | [] => none
  | wr :: rest => some (wr, { j with jfs := rest })

def popRecv : Option (RecvBuffer × FullJetty) :=
  j.toJetty.popRecv.map fun (buf, jetty) => (buf, { j with toJetty := jetty })

def pushCqe (cqe : Cqe) : Except UbError FullJetty :=
  (j.toJetty.pushCqe cqe).map fun jetty => { j with toJetty := jetty }

def pollCqe : Option (Cqe × FullJetty) :=
  j.toJetty.pollCqe.map fun (cqe, jetty) => (cqe, { j with toJetty := jetty })

/-- The completion of something that was flushed. -/
def flushedCqe (wrId : UInt64) (verb : Verb) : Cqe :=
  ⟨wrId, ubErrFlushed, none, 0, j.handle, verb⟩

/-- The loop of `close` over the send queue. -/
def flushJfs : FullJetty :=
  { j with
    jfs := []
    jfc := j.jfs.foldl (fun jfc wr => jfc ++ [j.flushedCqe wr.wrId wr.verb]) j.jfc }

/-- The loop of `close` over the receive queue. -/
def flushJfr : FullJetty :=
  { j with
    jfr := []
    jfc := j.jfr.foldl (fun jfc buf => jfc ++ [j.flushedCqe buf.wrId .send]) j.jfc }

def close : FullJetty :=
  if j.closed then j else { j with closed := true }.flushJfs.flushJfr

/-! ## Closing -/

theorem jfc_flushJfs :
    j.flushJfs.jfc = j.jfc ++ j.jfs.map fun wr => j.flushedCqe wr.wrId wr.verb := by
  simp only [flushJfs]
  rw [List.foldl_append_eq_append, ← List.flatMap_def, ← List.map_eq_flatMap]

theorem jfc_flushJfr :
    j.flushJfr.jfc = j.jfc ++ j.jfr.map fun buf => j.flushedCqe buf.wrId .send := by
  simp only [flushJfr]
  rw [List.foldl_append_eq_append, ← List.flatMap_def, ← List.map_eq_flatMap]

/-- The completions that closing owes: the work requests in order, then the buffers. -/
def owedCqes : List Cqe :=
  (j.jfs.map fun wr => j.flushedCqe wr.wrId wr.verb) ++
    j.jfr.map fun buf => j.flushedCqe buf.wrId .send

theorem close_eq (hopen : j.closed = false) :
    j.close.jfs = [] ∧ j.close.jfr = [] ∧ j.close.jfc = j.jfc ++ j.owedCqes := by
  have hclose : j.close = { j with closed := true }.flushJfs.flushJfr := by
    simp [close, hopen]
  rw [hclose]
  refine ⟨rfl, rfl, ?_⟩
  rw [jfc_flushJfr, jfc_flushJfs, List.append_assoc]
  rfl

theorem closed_close : j.close.closed = true := by
  unfold close
  split_ifs with hclosed
  · exact hclosed
  · rfl

theorem close_close : j.close.close = j.close := by
  rw [close, if_pos j.closed_close]

/-! ## Runs of the queue operations -/

end FullJetty

inductive QueueOp
  | postSend (wr : WorkRequest)
  | popSend
  | postRecv (buf : List UInt8) (wrId : UInt64)
  | popRecv
  | pushCqe (cqe : Cqe)
  | pollCqe
  deriving DecidableEq, Repr

/-- What enters and leaves the queues. -/
inductive QueueEvent
  | sendPosted (wr : WorkRequest)
  | sendPopped (wr : WorkRequest)
  | recvPosted (buf : RecvBuffer)
  | recvPopped (buf : RecvBuffer)
  | cqePushed (cqe : Cqe)
  | cqePolled (cqe : Cqe)
  /-- Taken out by `close`, with the completion it pushes for it. -/
  | sendFlushed (wr : WorkRequest) (cqe : Cqe)
  | recvFlushed (buf : RecvBuffer) (cqe : Cqe)
  deriving DecidableEq, Repr

namespace FullJetty

/-- The outcome of an operation that fails with an error. -/
def accept (j : FullJetty) (event : QueueEvent) : Except UbError FullJetty →
    FullJetty × List QueueEvent
  | .ok j' => (j', [event])
  | .error _ => (j, [])

/-- The outcome of an operation that takes from a queue. -/
def take {α : Type} (j : FullJetty) (event : α → QueueEvent) :
    Option (α × FullJetty) → FullJetty × List QueueEvent
  | some (a, j') => (j', [event a])
  | none => (j, [])

def step (j : FullJetty) : QueueOp → FullJetty × List QueueEvent
  | .postSend wr => j.accept (.sendPosted wr) (j.postSend wr)
  | .popSend => j.take .sendPopped j.popSend
  | .postRecv buf wrId => j.accept (.recvPosted ⟨buf, wrId⟩) (j.postRecv buf wrId)
  | .popRecv => j.take .recvPopped j.popRecv
  | .pushCqe cqe => j.accept (.cqePushed cqe) (j.pushCqe cqe)
  | .pollCqe => j.take .cqePolled j.pollCqe

/-- The operation returns an error, or finds nothing to take. -/
def Refuses (j : FullJetty) : QueueOp → Prop
  | .postSend wr => ∃ err, j.postSend wr = .error err
  | .popSend => j.popSend = none
  | .postRecv buf wrId => ∃ err, j.postRecv buf wrId = .error err
  | .popRecv => j.popRecv = none
  | .pushCqe cqe => ∃ err, j.pushCqe cqe = .error err
  | .pollCqe => j.pollCqe = none

/-- What an operation lets in or out: a post that finds room is accepted, and what is
taken is the head of the queue. -/
def served (j : FullJetty) : QueueOp → List QueueEvent
  | .postSend wr =>
    if j.jfc.length < j.jfcHighWatermark.toNat ∧ j.jfs.length < j.jfsDepth.toNat then
      [.sendPosted wr]
    else []
  | .popSend => (j.jfs.head?.map .sendPopped).toList
  | .postRecv buf wrId =>
    if j.jfr.length < j.jfrDepth.toNat then [.recvPosted ⟨buf, wrId⟩] else []
  | .popRecv => (j.jfr.head?.map .recvPopped).toList
  | .pushCqe cqe => if j.jfc.length < j.jfcDepth.toNat then [.cqePushed cqe] else []
  | .pollCqe => (j.jfc.head?.map .cqePolled).toList

end FullJetty

namespace QueueEvent

def sendIn : QueueEvent → Option WorkRequest
  | sendPosted wr => some wr
  | _ => none

def sendOut : QueueEvent → Option WorkRequest
  | sendPopped wr | sendFlushed wr _ => some wr
  | _ => none

def recvIn : QueueEvent → Option RecvBuffer
  | recvPosted buf => some buf
  | _ => none

def recvOut : QueueEvent → Option RecvBuffer
  | recvPopped buf | recvFlushed buf _ => some buf
  | _ => none

def cqeIn : QueueEvent → Option Cqe
  | cqePushed cqe | sendFlushed _ cqe | recvFlushed _ cqe => some cqe
  | _ => none

def cqeOut : QueueEvent → Option Cqe
  | cqePolled cqe => some cqe
  | _ => none

end QueueEvent

namespace FullJetty

open QueueEvent

/-- No queue is longer than its depth. -/
structure Within (j : FullJetty) : Prop where
  jfs : j.jfs.length ≤ j.jfsDepth.toNat
  jfr : j.jfr.length ≤ j.jfrDepth.toNat
  jfc : j.jfc.length ≤ j.jfcDepth.toNat

/-- Each queue is first in, first out, and holds what came in and did not go out. -/
structure Conserved (log : List QueueEvent) (j : FullJetty) : Prop where
  jfs : log.filterMap sendIn = log.filterMap sendOut ++ j.jfs
  jfr : log.filterMap recvIn = log.filterMap recvOut ++ j.jfr
  jfc : log.filterMap cqeIn = log.filterMap cqeOut ++ j.jfc

/-- What a step does to the queues, with what it lets in and out. -/
structure Carries (j j' : FullJetty) (events : List QueueEvent) : Prop where
  jfs : j.jfs ++ events.filterMap sendIn = events.filterMap sendOut ++ j'.jfs
  jfr : j.jfr ++ events.filterMap recvIn = events.filterMap recvOut ++ j'.jfr
  jfc : j.jfc ++ events.filterMap cqeIn = events.filterMap cqeOut ++ j'.jfc

theorem Carries.refl (j : FullJetty) : j.Carries j [] := by
  constructor <;> exact List.append_nil _

structure Moves (j j' : FullJetty) (events : List QueueEvent) : Prop
    extends Carries j j' events where
  within : j.Within → j'.Within
  closed : j'.closed = j.closed

theorem Moves.refl (j : FullJetty) : j.Moves j [] := ⟨.refl j, id, rfl⟩

variable {j : FullJetty}

theorem moves_postSend (wr : WorkRequest) :
    j.Moves (j.step (.postSend wr)).1 (j.step (.postSend wr)).2 := by
  simp only [step, postSend, pushSend]
  split_ifs with hwatermark hfull
  · exact .refl j
  · refine ⟨⟨?_, ?_, ?_⟩, ?_, ?_⟩
    · simp [accept, sendIn, sendOut]
    · exact List.append_nil _
    · exact List.append_nil _
    · intro h
      refine ⟨?_, h.jfr, h.jfc⟩
      simp only [accept, List.length_append, List.length_singleton]
      omega
    · rfl
  · exact .refl j

theorem moves_popSend : j.Moves (j.step .popSend).1 (j.step .popSend).2 := by
  cases hjfs : j.jfs with
  | nil =>
    simp only [step, popSend, hjfs]
    exact .refl j
  | cons wr rest =>
    simp only [step, popSend, hjfs]
    refine ⟨⟨?_, ?_, ?_⟩, ?_, ?_⟩
    · simp [take, hjfs, sendIn, sendOut]
    · exact List.append_nil _
    · exact List.append_nil _
    · intro h
      have hlen := h.jfs
      rw [hjfs, List.length_cons] at hlen
      exact ⟨Nat.le_of_succ_le hlen, h.jfr, h.jfc⟩
    · rfl

theorem moves_postRecv (buf : List UInt8) (wrId : UInt64) :
    j.Moves (j.step (.postRecv buf wrId)).1 (j.step (.postRecv buf wrId)).2 := by
  simp only [step, postRecv, Jetty.postRecv]
  split_ifs with hfull
  · exact .refl j
  · refine ⟨⟨?_, ?_, ?_⟩, ?_, ?_⟩
    · exact List.append_nil _
    · simp [accept, Except.map, recvIn, recvOut]
    · exact List.append_nil _
    · intro h
      refine ⟨h.jfs, ?_, h.jfc⟩
      simp only [accept, Except.map, List.length_append, List.length_singleton]
      omega
    · rfl

theorem moves_popRecv : j.Moves (j.step .popRecv).1 (j.step .popRecv).2 := by
  cases hjfr : j.jfr with
  | nil =>
    simp only [step, popRecv, Jetty.popRecv, hjfr]
    exact .refl j
  | cons buf rest =>
    simp only [step, popRecv, Jetty.popRecv, hjfr]
    refine ⟨⟨?_, ?_, ?_⟩, ?_, ?_⟩
    · exact List.append_nil _
    · simp [take, hjfr, recvIn, recvOut]
    · exact List.append_nil _
    · intro h
      have hlen := h.jfr
      rw [hjfr, List.length_cons] at hlen
      exact ⟨h.jfs, Nat.le_of_succ_le hlen, h.jfc⟩
    · rfl

theorem moves_pushCqe (cqe : Cqe) :
    j.Moves (j.step (.pushCqe cqe)).1 (j.step (.pushCqe cqe)).2 := by
  simp only [step, pushCqe, Jetty.pushCqe]
  split_ifs with hfull
  · exact .refl j
  · refine ⟨⟨?_, ?_, ?_⟩, ?_, ?_⟩
    · exact List.append_nil _
    · exact List.append_nil _
    · simp [accept, Except.map, cqeIn, cqeOut]
    · intro h
      refine ⟨h.jfs, h.jfr, ?_⟩
      simp only [accept, Except.map, List.length_append, List.length_singleton]
      omega
    · rfl

theorem moves_pollCqe : j.Moves (j.step .pollCqe).1 (j.step .pollCqe).2 := by
  cases hjfc : j.jfc with
  | nil =>
    simp only [step, pollCqe, Jetty.pollCqe, hjfc]
    exact .refl j
  | cons cqe rest =>
    simp only [step, pollCqe, Jetty.pollCqe, hjfc]
    refine ⟨⟨?_, ?_, ?_⟩, ?_, ?_⟩
    · exact List.append_nil _
    · exact List.append_nil _
    · simp [take, hjfc, cqeIn, cqeOut]
    · intro h
      have hlen := h.jfc
      rw [hjfc, List.length_cons] at hlen
      exact ⟨h.jfs, h.jfr, Nat.le_of_succ_le hlen⟩
    · rfl

theorem moves_step (j : FullJetty) (op : QueueOp) : j.Moves (j.step op).1 (j.step op).2 := by
  cases op with
  | postSend wr => exact moves_postSend wr
  | popSend => exact moves_popSend
  | postRecv buf wrId => exact moves_postRecv buf wrId
  | popRecv => exact moves_popRecv
  | pushCqe cqe => exact moves_pushCqe cqe
  | pollCqe => exact moves_pollCqe

theorem step_of_refuses {op : QueueOp} (h : j.Refuses op) : (j.step op).1 = j := by
  cases op with
  | postSend wr | postRecv buf wrId | pushCqe cqe =>
    obtain ⟨err, herr⟩ := h
    simp only [step, herr, accept]
  | popSend | popRecv | pollCqe =>
    have hnone := h
    simp only [Refuses] at hnone
    simp only [step, hnone, take]

theorem log_step (j : FullJetty) (op : QueueOp) : (j.step op).2 = j.served op := by
  cases op with
  | postSend wr =>
    simp only [step, postSend, pushSend, belowWatermark, decide_eq_true_eq, served]
    split_ifs <;> first | rfl | omega
  | popSend =>
    simp only [step, popSend, served]
    cases j.jfs <;> rfl
  | postRecv buf wrId =>
    simp only [step, postRecv, Jetty.postRecv, served]
    split_ifs <;> first | rfl | omega
  | popRecv =>
    simp only [step, popRecv, Jetty.popRecv, served]
    cases j.jfr <;> rfl
  | pushCqe cqe =>
    simp only [step, pushCqe, Jetty.pushCqe, served]
    split_ifs <;> first | rfl | omega
  | pollCqe =>
    simp only [step, pollCqe, Jetty.pollCqe, served]
    cases j.jfc <;> rfl

theorem balance_append {α : Type} {came went queue came' went' queue' : List α}
    (h : came = went ++ queue) (hstep : queue ++ came' = went' ++ queue') :
    came ++ came' = went ++ went' ++ queue' := by
  rw [h, List.append_assoc, hstep, List.append_assoc]

theorem Conserved.append {log events : List QueueEvent} {j' : FullJetty} (h : Conserved log j)
    (hcarries : j.Carries j' events) : Conserved (log ++ events) j' := by
  constructor
  · rw [List.filterMap_append, List.filterMap_append]
    exact balance_append h.jfs hcarries.jfs
  · rw [List.filterMap_append, List.filterMap_append]
    exact balance_append h.jfr hcarries.jfr
  · rw [List.filterMap_append, List.filterMap_append]
    exact balance_append h.jfc hcarries.jfc

/-- Over any run of operations on a new Jetty the queues keep to their depths and
lose nothing, an operation is refused only if its queue is full or empty or the completion
queue stands at its watermark, and a refused operation changes nothing. Closing it then empties the
send and receive queues and adds one completion for each thing that was left in
them, in order; closing it again changes nothing. -/
theorem queues_conserved (handle : UInt32) (nodeId : UInt16) (config : JettyConfig)
    (ops : List QueueOp) :
    let run := Runs.run step (new handle nodeId config) ops
    run.1.Within ∧ Conserved run.2 run.1 ∧
      (∀ op, (run.1.step op).2 = run.1.served op) ∧
      (∀ op, run.1.Refuses op → (run.1.step op).1 = run.1) ∧
      run.1.close.jfs = [] ∧ run.1.close.jfr = [] ∧
      run.1.close.jfc = run.1.jfc ++ run.1.owedCqes ∧
      run.1.close.close = run.1.close := by
  intro run
  have hinit : (new handle nodeId config).Within ∧ Conserved [] (new handle nodeId config) ∧
      (new handle nodeId config).closed = false := by
    refine ⟨?_, ?_, rfl⟩
    · constructor <;> exact Nat.zero_le _
    · constructor <;> rfl
  have hrun := Runs.run_always
    (I := fun (j : FullJetty) log => j.Within ∧ Conserved log j ∧ j.closed = false)
    (fun j log op h => ⟨(j.moves_step op).within h.1,
      h.2.1.append (j.moves_step op).toCarries,
      (j.moves_step op).closed.trans h.2.2⟩) hinit ops
  obtain ⟨hwithin, hconserved, hopen⟩ := hrun
  obtain ⟨hjfs, hjfr, hjfc⟩ := run.1.close_eq hopen
  refine ⟨hwithin, ?_, run.1.log_step, ?_, hjfs, hjfr, hjfc, run.1.close_close⟩
  · simpa using hconserved
  · intro op hrefuses
    exact step_of_refuses hrefuses

end FullJetty
end UniBus
