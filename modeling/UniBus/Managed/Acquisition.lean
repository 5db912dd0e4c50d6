import UniBus.Foundations.Threads
import UniBus.Managed.Leases

/-!
# Overlapping acquisitions

`acquire_writer` takes the lock of the writer field twice, once to check it and
once to store the new writer, and the lock of the readers in between. Other
callers may come in between any two of these steps, each with its own reading of
the clock.
-/
namespace UniBus.Managed

/-- How far a call of `acquire_writer` has come. -/
inductive AcquirePhase
  | start
  | checked
  | snapshot (readers : Finset UInt16)
  | returned (result : AcquireWriterResult)
  deriving DecidableEq

namespace AcquirePhase

def InProgress : AcquirePhase → Prop
  | checked => True
  | snapshot _ => True
  | _ => False

def Granted : AcquirePhase → Prop
  | returned (.granted ..) => True
  | _ => False

end AcquirePhase

namespace CoherenceManager

def acquireStep (regionId : RegionId) (node : UInt16) (now : Instant) (c : CoherenceManager) :
    AcquirePhase → CoherenceManager × AcquirePhase
  | .start =>
    match c.homeStates.lookup regionId with
    | none => (c, .returned .notFound)
    | some state =>
      match holder state now node with
      | some other =>
        let queue := (c.waitQueues.lookup regionId).getD []
        ({ c with waitQueues := c.waitQueues.insert regionId (queue ++ [node]) },
          .returned (.denied regionId ("writer node " ++ toString other ++ " holds the lock")))
      | none => (c, .checked)
  | .checked => (c, .snapshot (c.getReaders regionId))
  -- the lock is stored with or without readers
  | .snapshot _ =>
    match c.homeStates.lookup regionId with
    | none => (c, .returned .notFound)
    | some state =>
      let deadline := now + fromMillis c.writerLeaseMs
      (c.modifyState regionId fun s => { s with writer := some ⟨node, deadline⟩ },
        .returned (.granted regionId state.epoch))
  | .returned result => (c, .returned result)

variable (c : CoherenceManager) (regionId : RegionId) (node : UInt16) (now : Instant)

/-- The three scopes in a row, with one reading of the clock, are `acquire_writer`. -/
theorem acquireStep_three :
    let first := c.acquireStep regionId node now .start
    let second := first.1.acquireStep regionId node now first.2
    let third := second.1.acquireStep regionId node now second.2
    third.1 = (c.acquireWriter now regionId node).1 ∧
      third.2 = .returned (c.acquireWriter now regionId node).2 := by
  cases hlookup : c.homeStates.lookup regionId with
  | none => simp [acquireStep, acquireWriter, hlookup]
  | some state =>
    cases hholder : holder state now node with
    | none => simp [acquireStep, acquireWriter, hlookup, hholder]
    | some other => simp [acquireStep, acquireWriter, hlookup, hholder]

theorem acquireStep_start :
    (c.acquireStep regionId node now .start = (c, .checked) ∧
      ∃ state, c.homeStates.lookup regionId = some state ∧ holder state now node = none) ∨
    ∃ result, (c.acquireStep regionId node now .start).2 = .returned result ∧
      ¬ (AcquirePhase.returned result).Granted ∧
      (c.acquireStep regionId node now .start).1.homeStates = c.homeStates := by
  cases hlookup : c.homeStates.lookup regionId with
  | none => simp [acquireStep, hlookup, AcquirePhase.Granted]
  | some state =>
    cases hholder : holder state now node with
    | none => simp [acquireStep, hlookup, hholder]
    | some other => simp [acquireStep, hlookup, hholder, AcquirePhase.Granted]

theorem acquireStep_snapshot (readers : Finset UInt16) :
    ¬ (c.acquireStep regionId node now (.snapshot readers)).2.InProgress ∧
      ((c.acquireStep regionId node now (.snapshot readers)).2.Granted →
        (c.acquireStep regionId node now (.snapshot readers)).1.getWriter regionId =
          some ⟨node, now + fromMillis c.writerLeaseMs⟩) := by
  cases hlookup : c.homeStates.lookup regionId with
  | none => simp [acquireStep, hlookup, AcquirePhase.InProgress, AcquirePhase.Granted]
  | some state =>
    simp [acquireStep, hlookup, AcquirePhase.InProgress, getWriter, modifyState,
      Maps.lookup_modify]

end CoherenceManager

/-- The callers of `acquire_writer` for one region, at most one per node. -/
abbrev Acquirers := Threads.Pool UInt16 CoherenceManager AcquirePhase

namespace Acquirers

def new (c : CoherenceManager) : Acquirers := ⟨c, fun _ => .start⟩

/-- A turn of a node with its reading of the clock; the log records what the calls
return. -/
def step (regionId : RegionId) (p : Acquirers) (turn : UInt16 × Instant) :
    Acquirers × List (UInt16 × AcquireWriterResult) :=
  p.turn turn.1 fun c phase =>
    let out := c.acquireStep regionId turn.1 turn.2 phase
    (out.1, out.2,
      match phase, out.2 with
      | .returned _, _ => []
      | _, .returned result => [(turn.1, result)]
      | _, _ => [])

/-- A call begins while no other is between its check and its store, and before
the lease of the node that was granted the lock has expired. -/
structure Apart (regionId : RegionId) (p : Acquirers) (turn : UInt16 × Instant) : Prop where
  alone : p.thread turn.1 = .start → ∀ other, ¬ (p.thread other).InProgress
  held : p.thread turn.1 = .start → ∀ other ≠ turn.1, (p.thread other).Granted →
    ∀ info, p.shared.getWriter regionId = some info → turn.2 ≤ info.leaseDeadline

/-- One call at a time is in progress, and the one that was granted is the writer. -/
structure Serial (regionId : RegionId) (p : Acquirers)
    (log : List (UInt16 × AcquireWriterResult)) : Prop where
  alone : ∀ x y, (p.thread x).InProgress → (p.thread y).InProgress → x = y
  settled : ∀ x y, (p.thread x).Granted → ¬ (p.thread y).InProgress
  writer : ∀ x, (p.thread x).Granted →
    ∃ info, p.shared.getWriter regionId = some info ∧ info.writerNodeId = x
  results : ∀ entry ∈ log, p.thread entry.1 = .returned entry.2

variable {regionId : RegionId} {p : Acquirers} {log : List (UInt16 × AcquireWriterResult)}
  {node : UInt16} {now : Instant}

theorem step_thread_ne {x : UInt16} (h : x ≠ node) :
    (p.step regionId (node, now)).1.thread x = p.thread x := Threads.Pool.turn_thread_ne h

theorem step_thread_self :
    (p.step regionId (node, now)).1.thread node =
      (p.shared.acquireStep regionId node now (p.thread node)).2 :=
  Threads.Pool.turn_thread_self

theorem step_shared :
    (p.step regionId (node, now)).1.shared =
      (p.shared.acquireStep regionId node now (p.thread node)).1 := rfl

theorem results_step (h : ∀ entry ∈ log, p.thread entry.1 = .returned entry.2) :
    ∀ entry ∈ log ++ (p.step regionId (node, now)).2,
      (p.step regionId (node, now)).1.thread entry.1 = .returned entry.2 := by
  intro entry hentry
  rcases List.mem_append.mp hentry with hold | hnew
  · have hthread := h entry hold
    by_cases hnode : entry.1 = node
    · rw [hnode] at hthread ⊢
      rw [step_thread_self, hthread]
      rfl
    · rw [step_thread_ne hnode, hthread]
  · simp only [step, Threads.Pool.turn_log] at hnew
    split at hnew
    · cases hnew
    · next result hphase _ =>
      obtain rfl := List.mem_singleton.mp hnew
      rw [step_thread_self]
      exact hphase
    · cases hnew

section
variable (h : p.Serial regionId log)
include h

theorem Serial.not_granted (hturn : p.Apart regionId (node, now)) (hstart : p.thread node = .start)
    {state : RegionHomeState} (hlookup : p.shared.homeStates.lookup regionId = some state)
    (hholder : CoherenceManager.holder state now node = none) (x : UInt16) :
    ¬ (p.thread x).Granted := by
  intro hgranted
  have hne : x ≠ node := by
    rintro rfl
    rw [hstart] at hgranted
    exact hgranted
  obtain ⟨info, hwriter, hname⟩ := h.writer x hgranted
  have hnow := hturn.held hstart x hne hgranted info hwriter
  rw [CoherenceManager.getWriter, hlookup, Option.bind_some] at hwriter
  simp [CoherenceManager.holder, hwriter, hname, hnow, hne] at hholder

theorem Serial.quiet
    (hprogress : (p.shared.acquireStep regionId node now (p.thread node)).2.InProgress →
      (p.thread node).InProgress)
    (hgranted : (p.shared.acquireStep regionId node now (p.thread node)).2.Granted →
      (p.thread node).Granted)
    (hwriter : (p.shared.acquireStep regionId node now (p.thread node)).1.getWriter regionId =
      p.shared.getWriter regionId) :
    (p.step regionId (node, now)).1.Serial regionId
      (log ++ (p.step regionId (node, now)).2) := by
  have hprogress' : ∀ x, ((p.step regionId (node, now)).1.thread x).InProgress →
      (p.thread x).InProgress := by
    intro x hx
    by_cases hnode : x = node
    · subst hnode
      rw [step_thread_self] at hx
      exact hprogress hx
    · rwa [step_thread_ne hnode] at hx
  have hgranted' : ∀ x, ((p.step regionId (node, now)).1.thread x).Granted →
      (p.thread x).Granted := by
    intro x hx
    by_cases hnode : x = node
    · subst hnode
      rw [step_thread_self] at hx
      exact hgranted hx
    · rwa [step_thread_ne hnode] at hx
  constructor
  · intro x y hx hy
    exact h.alone x y (hprogress' x hx) (hprogress' y hy)
  · intro x y hx hy
    exact h.settled x y (hgranted' x hx) (hprogress' y hy)
  · intro x hx
    rw [step_shared, hwriter]
    exact h.writer x (hgranted' x hx)
  · exact results_step h.results

/-- A call passes the check while no other call is in progress or granted. -/
theorem Serial.enter (hstart : p.thread node = .start) (halone : ∀ x, ¬ (p.thread x).InProgress)
    (hfree : ∀ x, ¬ (p.thread x).Granted)
    (hstep : p.shared.acquireStep regionId node now .start = (p.shared, .checked)) :
    (p.step regionId (node, now)).1.Serial regionId
      (log ++ (p.step regionId (node, now)).2) := by
  have hprogress : ∀ x, ((p.step regionId (node, now)).1.thread x).InProgress → x = node := by
    intro x hx
    by_contra hnode
    rw [step_thread_ne hnode] at hx
    exact halone x hx
  have hgranted : ∀ x, ¬ ((p.step regionId (node, now)).1.thread x).Granted := by
    intro x hx
    by_cases hnode : x = node
    · subst hnode
      rw [step_thread_self, hstart, hstep] at hx
      exact hx
    · rw [step_thread_ne hnode] at hx
      exact hfree x hx
  constructor
  · intro x y hx hy
    rw [hprogress x hx, hprogress y hy]
  · intro x y hx
    exact absurd hx (hgranted x)
  · intro x hx
    exact absurd hx (hgranted x)
  · exact results_step h.results

theorem Serial.store {readers : Finset UInt16} (hphase : p.thread node = .snapshot readers) :
    (p.step regionId (node, now)).1.Serial regionId
      (log ++ (p.step regionId (node, now)).2) := by
  have hin : (p.thread node).InProgress := by
    rw [hphase]
    trivial
  obtain ⟨hout, hwriter⟩ := p.shared.acquireStep_snapshot regionId node now readers
  have hprogress : ∀ x, ¬ ((p.step regionId (node, now)).1.thread x).InProgress := by
    intro x hx
    by_cases hnode : x = node
    · subst hnode
      rw [step_thread_self, hphase] at hx
      exact hout hx
    · rw [step_thread_ne hnode] at hx
      exact hnode (h.alone x node hx hin)
  constructor
  · intro x y hx
    exact absurd hx (hprogress x)
  · intro x y _
    exact hprogress y
  · intro x hx
    by_cases hnode : x = node
    · subst hnode
      rw [step_thread_self, hphase] at hx
      rw [step_shared, hphase]
      exact ⟨_, hwriter hx, rfl⟩
    · rw [step_thread_ne hnode] at hx
      exact absurd hin (h.settled x node hx)
  · exact results_step h.results

theorem Serial.step {turn : UInt16 × Instant} (hturn : p.Apart regionId turn) :
    (p.step regionId turn).1.Serial regionId (log ++ (p.step regionId turn).2) := by
  obtain ⟨node, now⟩ := turn
  cases hphase : p.thread node with
  | start =>
    rcases p.shared.acquireStep_start regionId node now with
      ⟨hstep, state, hlookup, hholder⟩ | ⟨result, hret, hno, hsame⟩
    · exact h.enter hphase (hturn.alone hphase) (h.not_granted hturn hphase hlookup hholder) hstep
    · apply h.quiet
      · rw [hphase, hret]
        exact False.elim
      · rw [hphase, hret]
        exact fun hgranted => absurd hgranted hno
      · rw [hphase, CoherenceManager.getWriter, hsame, CoherenceManager.getWriter]
  | checked => apply h.quiet <;> simp [hphase, CoherenceManager.acquireStep,
      AcquirePhase.InProgress, AcquirePhase.Granted]
  | snapshot readers => exact h.store hphase
  | returned result => apply h.quiet <;> simp [hphase, CoherenceManager.acquireStep]

end

/-- The calls that returned the lock are all of one node. -/
def AtMostOneGranted (log : List (UInt16 × AcquireWriterResult)) : Prop :=
  ∀ x ∈ log, ∀ y ∈ log, (AcquirePhase.returned x.2).Granted →
    (AcquirePhase.returned y.2).Granted → x.1 = y.1

/-- Of calls that do not overlap, within the lease, at most one is granted. -/
theorem at_most_one_granted (c : CoherenceManager) (regionId : RegionId)
    (turns : List (UInt16 × Instant))
    (h : Runs.Meets (step regionId) (fun p _ => p.Apart regionId) (new c) [] turns) :
    AtMostOneGranted (Runs.run (step regionId) (new c) turns).2 := by
  have hnew : (new c).Serial regionId [] := by
    constructor
    · intro x y hx
      exact hx.elim
    · intro x y hx
      exact hx.elim
    · intro x hx
      exact hx.elim
    · intro entry hentry
      cases hentry
  have hrun := Runs.run_invariant (I := fun p log => Serial regionId p log)
    (fun p log turn hp hturn => hp.step hturn) hnew h
  intro x hx y hy hgrantedX hgrantedY
  rw [← hrun.results x hx] at hgrantedX
  rw [← hrun.results y hy] at hgrantedY
  obtain ⟨info, hinfo, hnameX⟩ := hrun.writer x.1 hgrantedX
  obtain ⟨info', hinfo', hnameY⟩ := hrun.writer y.1 hgrantedY
  rw [← hnameX, ← hnameY, Option.some.inj (hinfo.symm.trans hinfo')]

theorem at_most_one_granted_in_turn :
    AtMostOneGranted
      (Runs.run (step ⟨1⟩) (new leasedManager) [(2, 0), (2, 0), (2, 0), (3, 0)]).2 ∧
    (Runs.run (step ⟨1⟩) (new leasedManager) [(2, 0), (2, 0), (2, 0), (3, 0)]).2 =
      [(2, .granted ⟨1⟩ 0), (3, .denied ⟨1⟩ "writer node 2 holds the lock")] := by
  constructor
  · apply at_most_one_granted
    refine ⟨⟨?_, ?_⟩, ⟨?_, ?_⟩, ⟨?_, ?_⟩, ⟨?_, ?_⟩, trivial⟩
    · intro _ other hother
      exact hother
    · intro _ other _ hother
      exact hother.elim
    · intro hstart
      cases hstart
    · intro hstart
      cases hstart
    · intro hstart
      cases hstart
    · intro hstart
      cases hstart
    · intro _ other hother
      by_cases hnode : other = 2
      · subst hnode
        exact hother
      · rw [step_thread_ne hnode, step_thread_ne hnode, step_thread_ne hnode] at hother
        exact hother
    · intro _ other _ _ info hinfo
      exact Nat.zero_le _
  · rfl

/-- Both calls pass the check before either stores its writer. -/
theorem overlapping_calls_both_granted :
    (Runs.run (step ⟨1⟩) (new leasedManager) [(2, 0), (3, 0), (2, 0), (3, 0), (2, 0), (3, 0)]).2 =
      [(2, .granted ⟨1⟩ 0), (3, .granted ⟨1⟩ 0)] ∧
    ¬ AtMostOneGranted
      (Runs.run (step ⟨1⟩) (new leasedManager)
        [(2, 0), (3, 0), (2, 0), (3, 0), (2, 0), (3, 0)]).2 := by
  have hlog : (Runs.run (step ⟨1⟩) (new leasedManager)
      [(2, 0), (3, 0), (2, 0), (3, 0), (2, 0), (3, 0)]).2 =
      [(2, .granted ⟨1⟩ 0), (3, .granted ⟨1⟩ 0)] := rfl
  refine ⟨hlog, ?_⟩
  rw [hlog]
  intro h
  have heq := h (2, .granted ⟨1⟩ 0) (by simp) (3, .granted ⟨1⟩ 0) (by simp) trivial trivial
  exact absurd heq (by decide)

end Acquirers
end UniBus.Managed
