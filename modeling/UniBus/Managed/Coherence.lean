import Mathlib.Data.Finset.Basic
import UniBus.Foundations.Runs
import UniBus.Managed.Region

/-!
# Writer locks and readers at the home node

The coherence manager of a home node: for each region the nodes with cached
copies, the current writer with its lease, and the epoch. A call reads the clock
once.
-/
namespace UniBus.Managed

structure WriterInfo where
  writerNodeId : UInt16
  leaseDeadline : Instant
  deriving DecidableEq, Repr

structure RegionHomeState where
  mrHandle : UInt32
  baseOffset : UInt64
  len : UInt64
  epoch : UInt64
  /-- Nodes that hold cached Shared copies. -/
  readers : Finset UInt16
  writer : Option WriterInfo

namespace RegionHomeState

def new (mrHandle : UInt32) (baseOffset len epoch : UInt64) : RegionHomeState :=
  ⟨mrHandle, baseOffset, len, epoch, ∅, none⟩

variable (s : RegionHomeState)

def bumpEpoch : RegionHomeState := { s with epoch := s.epoch + 1 }

def addReader (nodeId : UInt16) : RegionHomeState := { s with readers := insert nodeId s.readers }

def removeReader (nodeId : UInt16) : RegionHomeState :=
  { s with readers := s.readers.erase nodeId }

/-- The writer whose lease has run out. -/
def expiredWriter (now : Instant) : Option UInt16 :=
  match s.writer with
  | some info => if now > info.leaseDeadline then some info.writerNodeId else none
  | none => none

theorem expiredWriter_eq_some {s : RegionHomeState} {now : Instant} {node : UInt16}
    (h : s.expiredWriter now = some node) :
    ∃ info, s.writer = some info ∧ info.leaseDeadline < now := by
  unfold expiredWriter at h
  cases hwriter : s.writer with
  | none =>
    rw [hwriter] at h
    cases h
  | some info =>
    rw [hwriter] at h
    dsimp only at h
    split_ifs at h with hnow
    exact ⟨info, rfl, hnow⟩

end RegionHomeState

inductive AcquireWriterResult
  | granted (regionId : RegionId) (epoch : UInt64)
  | denied (regionId : RegionId) (reason : String)
  | queued (regionId : RegionId)
  | notFound
  deriving DecidableEq, Repr

structure CoherenceManager where
  homeStates : AList (fun _ : RegionId => RegionHomeState)
  writerLeaseMs : ℕ
  waitQueues : AList (fun _ : RegionId => List UInt16)

namespace CoherenceManager

def new (writerLeaseMs : ℕ) : CoherenceManager := ⟨∅, writerLeaseMs, ∅⟩

variable (c : CoherenceManager)

def registerRegion (regionId : RegionId) (mrHandle : UInt32) (baseOffset len : UInt64) :
    CoherenceManager :=
  { c with homeStates := c.homeStates.insert regionId (.new mrHandle baseOffset len 0) }

def unregisterRegion (regionId : RegionId) : CoherenceManager :=
  { c with homeStates := c.homeStates.erase regionId }

def modifyState (regionId : RegionId) (f : RegionHomeState → RegionHomeState) :
    CoherenceManager :=
  { c with homeStates := Maps.modify c.homeStates regionId f }

/-- The node that holds an unexpired lock, other than the one that asks. -/
def holder (state : RegionHomeState) (now : Instant) (writerNodeId : UInt16) : Option UInt16 :=
  match state.writer with
  | some info =>
    if now ≤ info.leaseDeadline ∧ info.writerNodeId ≠ writerNodeId then some info.writerNodeId
    else none
  | none => none

/-- The lock is granted at once, with or without readers: with readers, the
caller is left to invalidate them. -/
def acquireWriter (now : Instant) (regionId : RegionId) (writerNodeId : UInt16) :
    CoherenceManager × AcquireWriterResult :=
  match c.homeStates.lookup regionId with
  | none => (c, .notFound)
  | some state =>
    match holder state now writerNodeId with
    | some other =>
      let queue := (c.waitQueues.lookup regionId).getD []
      ({ c with waitQueues := c.waitQueues.insert regionId (queue ++ [writerNodeId]) },
        .denied regionId ("writer node " ++ toString other ++ " holds the lock"))
    | none =>
      let deadline := now + fromMillis c.writerLeaseMs
      (c.modifyState regionId fun s => { s with writer := some ⟨writerNodeId, deadline⟩ },
        .granted regionId state.epoch)

/-- Only the current writer can release; the epoch is bumped then. -/
def releaseWriter (regionId : RegionId) (writerNodeId : UInt16) : CoherenceManager × Bool :=
  match c.homeStates.lookup regionId with
  | none => (c, false)
  | some state =>
    match state.writer with
    | none => (c, false)
    | some info =>
      if info.writerNodeId = writerNodeId then
        let released := c.modifyState regionId fun s => { s with writer := none }.bumpEpoch
        match c.waitQueues.lookup regionId with
        | some [] => ({ released with waitQueues := c.waitQueues.erase regionId }, true)
        | _ => (released, true)
      else (c, false)

/-- The answer is whether the region is registered. -/
def handleInvalidateAck (regionId : RegionId) (readerNodeId : UInt16) : CoherenceManager × Bool :=
  (c.modifyState regionId fun s => s.removeReader readerNodeId,
    (c.homeStates.lookup regionId).isSome)

def addReader (regionId : RegionId) (readerNodeId : UInt16) : CoherenceManager × Bool :=
  (c.modifyState regionId fun s => s.addReader readerNodeId,
    (c.homeStates.lookup regionId).isSome)

/-- The answer is whether the node was a reader. -/
def removeReader (regionId : RegionId) (readerNodeId : UInt16) : CoherenceManager × Bool :=
  (c.modifyState regionId fun s => s.removeReader readerNodeId,
    (c.homeStates.lookup regionId).any fun s => decide (readerNodeId ∈ s.readers))

def bumpEpoch (regionId : RegionId) : CoherenceManager × Option UInt64 :=
  (c.modifyState regionId RegionHomeState.bumpEpoch,
    (c.homeStates.lookup regionId).map fun s => s.epoch + 1)

/-- Releases the writers whose lease has run out; returns them. -/
def checkLeaseExpiry (now : Instant) : CoherenceManager × List (RegionId × UInt16) :=
  ({ c with
      homeStates := Maps.mapValues
        (fun _ s => if (s.expiredWriter now).isSome then { s with writer := none }.bumpEpoch else s)
        c.homeStates },
    c.homeStates.entries.filterMap fun e => (e.2.expiredWriter now).map fun node => (e.1, node))

def getWriter (regionId : RegionId) : Option WriterInfo :=
  (c.homeStates.lookup regionId).bind RegionHomeState.writer

def getReaders (regionId : RegionId) : Finset UInt16 :=
  ((c.homeStates.lookup regionId).map RegionHomeState.readers).getD ∅

def getEpoch (regionId : RegionId) : Option UInt64 :=
  (c.homeStates.lookup regionId).map RegionHomeState.epoch

end CoherenceManager

/-! ## Runs of the manager -/

inductive CoherenceCall
  | registerRegion (regionId : RegionId) (mrHandle : UInt32) (baseOffset len : UInt64)
  | addReader (regionId : RegionId) (node : UInt16)
  | removeReader (regionId : RegionId) (node : UInt16)
  | handleInvalidateAck (regionId : RegionId) (node : UInt16)
  | acquireWriter (now : Instant) (regionId : RegionId) (node : UInt16)
  | releaseWriter (regionId : RegionId) (node : UInt16)
  | checkLeaseExpiry (now : Instant)

/-- What the log of a run records about a region. -/
inductive CoherenceEvent
  | registered (regionId : RegionId)
  /-- The lock was granted while these nodes were readers. -/
  | granted (regionId : RegionId) (writer : UInt16) (readers : Finset UInt16)
  /-- A reader acknowledged an invalidation or was removed. -/
  | left (regionId : RegionId) (node : UInt16)
  deriving DecidableEq

namespace CoherenceManager

def step (c : CoherenceManager) : CoherenceCall → CoherenceManager × List CoherenceEvent
  | .registerRegion regionId mrHandle baseOffset len =>
    (c.registerRegion regionId mrHandle baseOffset len, [.registered regionId])
  | .addReader regionId node => ((c.addReader regionId node).1, [])
  | .removeReader regionId node => ((c.removeReader regionId node).1, [.left regionId node])
  | .handleInvalidateAck regionId node =>
    ((c.handleInvalidateAck regionId node).1, [.left regionId node])
  | .acquireWriter now regionId node =>
    match c.acquireWriter now regionId node with
    | (c', .granted ..) => (c', [.granted regionId node (c.getReaders regionId)])
    | (c', _) => (c', [])
  | .releaseWriter regionId node => ((c.releaseWriter regionId node).1, [])
  | .checkLeaseExpiry now => ((c.checkLeaseExpiry now).1, [])

end CoherenceManager
end UniBus.Managed
