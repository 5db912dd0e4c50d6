import UniBus.Managed.Leases

/-!
# Writer guards

A guard releases the writer lock when it is released or dropped. It knows the
lock by its region and its node only, so it releases whatever tenure of that node
is recorded by then.
-/
namespace UniBus.Managed

structure WriterGuard where
  va : UbVa
  regionId : RegionId
  homeNodeId : UInt16
  writerNodeId : UInt16
  epoch : UInt64
  released : Bool
  deriving DecidableEq

namespace WriterGuard

def new (va : UbVa) (regionId : RegionId) (homeNodeId writerNodeId : UInt16) (epoch : UInt64) :
    WriterGuard :=
  ⟨va, regionId, homeNodeId, writerNodeId, epoch, false⟩

variable (guard : WriterGuard) (c : CoherenceManager)

def release : WriterGuard × CoherenceManager × Bool :=
  if guard.released then (guard, c, false)
  else ({ guard with released := true }, c.releaseWriter guard.regionId guard.writerNodeId)

def drop : CoherenceManager :=
  if guard.released then c else (guard.release c).2.1

end WriterGuard

/-- A coherence manager and the guards that refer to it. -/
structure GuardState where
  manager : CoherenceManager
  guards : AList (fun _ : ℕ => WriterGuard)
  nextGuard : ℕ

inductive GuardCall
  | manager (call : LeaseCall)
  | create (va : UbVa) (regionId : RegionId) (homeNodeId writerNodeId : UInt16) (epoch : UInt64)
  | release (guard : ℕ)
  | drop (guard : ℕ)

namespace GuardState

variable (s : GuardState)

def step : GuardCall → GuardState × List Grant
  | .manager call =>
    ({ s with manager := (s.manager.leaseStep call).1 }, (s.manager.leaseStep call).2)
  | .create va regionId homeNodeId writerNodeId epoch =>
    let guard := WriterGuard.new va regionId homeNodeId writerNodeId epoch
    ({ s with guards := s.guards.insert s.nextGuard guard, nextGuard := s.nextGuard + 1 }, [])
  | .release id =>
    match s.guards.lookup id with
    | none => (s, [])
    | some guard =>
      let out := guard.release s.manager
      ({ s with manager := out.2.1, guards := s.guards.insert id out.1 }, [])
  | .drop id =>
    match s.guards.lookup id with
    | none => (s, [])
    | some guard =>
      ({ s with manager := guard.drop s.manager, guards := s.guards.erase id }, [])

/-- The call leaves the writer and the epoch of the region as they are. -/
def Keeps (call : GuardCall) (regionId : RegionId) : Prop :=
  (s.step call).1.manager.getWriter regionId = s.manager.getWriter regionId ∧
    (s.step call).1.manager.getEpoch regionId = s.manager.getEpoch regionId

end GuardState

namespace CoherenceManager

def Names (c : CoherenceManager) (regionId : RegionId) (node : UInt16) : Prop :=
  ∃ info, c.getWriter regionId = some info ∧ info.writerNodeId = node

variable {c : CoherenceManager} {regionId : RegionId} {node : UInt16}

theorem names_iff_of_lookup {s : RegionHomeState} (h : c.homeStates.lookup regionId = some s) :
    c.Names regionId node ↔ ∃ info, s.writer = some info ∧ info.writerNodeId = node := by
  rw [Names, getWriter, h, Option.bind_some]

theorem not_names_of_lookup_none (h : c.homeStates.lookup regionId = none) :
    ¬ c.Names regionId node := by
  rintro ⟨info, hinfo, -⟩
  rw [getWriter, h] at hinfo
  cases hinfo

theorem names_of_leaseStep (call : LeaseCall) (h : (c.leaseStep call).1.Names regionId node) :
    c.Names regionId node ∨
      ∃ g ∈ (c.leaseStep call).2, g.regionId = regionId ∧ g.node = node := by
  by_cases hregisters : call.Registers regionId
  · cases call with
    | registerRegion r mrHandle baseOffset len =>
      obtain rfl : r = regionId := hregisters
      obtain ⟨info, hinfo, -⟩ := (names_iff_of_lookup (AList.lookup_insert _)).mp h
      cases hinfo
    | unregisterRegion r =>
      obtain rfl : r = regionId := hregisters
      exact absurd h (not_names_of_lookup_none (AList.lookup_erase _ _))
    | _ => exact hregisters.elim
  · cases hlookup : c.homeStates.lookup regionId with
    | none => exact absurd h (not_names_of_lookup_none (leaseStep_of_none hlookup hregisters).1)
    | some state =>
      obtain ⟨state', hlookup', heffect⟩ := leaseStep_effect hlookup hregisters
      rw [names_iff_of_lookup hlookup'] at h
      rw [names_iff_of_lookup hlookup]
      generalize (c.leaseStep call).2 = grants at heffect
      cases heffect with
      | kept hwriter hepoch hgrants =>
        rw [hwriter] at h
        exact Or.inl h
      | granted now other hholder =>
        obtain ⟨info, hinfo, rfl⟩ := h
        cases hinfo
        exact Or.inr ⟨_, List.mem_singleton_self _, rfl, rfl⟩
      | ended info hwriter hcall =>
        obtain ⟨info', hinfo', -⟩ := h
        cases hinfo'
      | bumped => exact Or.inl h

theorem releaseWriter_of_not_names (h : ¬ c.Names regionId node) :
    c.releaseWriter regionId node = (c, false) := by
  cases hlookup : c.homeStates.lookup regionId with
  | none => simp [releaseWriter, hlookup]
  | some state =>
    rw [names_iff_of_lookup hlookup] at h
    cases hwriter : state.writer with
    | none => simp [releaseWriter, hlookup, hwriter]
    | some info =>
      have hne : info.writerNodeId ≠ node := fun heq => h ⟨info, hwriter, heq⟩
      simp [releaseWriter, hlookup, hwriter, hne]

/-- The release of any tenure of the node takes the lock away from it. -/
theorem getWriter_releaseWriter_of_names (h : c.Names regionId node) :
    (c.releaseWriter regionId node).1.getWriter regionId = none := by
  cases hlookup : c.homeStates.lookup regionId with
  | none => exact absurd h (not_names_of_lookup_none hlookup)
  | some state =>
    obtain ⟨info, hwriter, hname⟩ := (names_iff_of_lookup hlookup).mp h
    rw [getWriter, releaseWriter_homeStates node hlookup, if_pos (by simp [hwriter, hname]),
      lookup_modifyState regionId _ hlookup, if_pos rfl]
    rfl

end CoherenceManager

namespace WriterGuard

variable {guard : WriterGuard} {c : CoherenceManager}

theorem release_manager : (guard.release c).2.1 = guard.drop c := by
  unfold drop release
  split <;> rfl

theorem drop_keeps_iff :
    ((guard.drop c).getWriter guard.regionId = c.getWriter guard.regionId ∧
      (guard.drop c).getEpoch guard.regionId = c.getEpoch guard.regionId) ↔
    guard.released = true ∨ ¬ c.Names guard.regionId guard.writerNodeId := by
  by_cases hreleased : guard.released = true
  · simp [drop, hreleased]
  · have hdrop : guard.drop c = (c.releaseWriter guard.regionId guard.writerNodeId).1 := by
      simp [drop, release, hreleased]
    rw [hdrop]
    constructor
    · rintro ⟨hwriter, -⟩
      right
      intro hnames
      rw [CoherenceManager.getWriter_releaseWriter_of_names hnames] at hwriter
      obtain ⟨info, hinfo, -⟩ := hnames
      rw [hinfo] at hwriter
      cases hwriter
    · rintro (h | hnames)
      · exact absurd h hreleased
      · rw [CoherenceManager.releaseWriter_of_not_names hnames]
        exact ⟨rfl, rfl⟩

theorem names_of_drop {regionId : RegionId} {node : UInt16}
    (h : (guard.drop c).Names regionId node) : c.Names regionId node := by
  unfold drop release at h
  split at h
  · exact h
  · have hstep := CoherenceManager.names_of_leaseStep
      (.releaseWriter guard.regionId guard.writerNodeId) h
    simpa [CoherenceManager.leaseStep] using hstep

end WriterGuard

namespace GuardState

variable {s : GuardState}

theorem keeps_iff {id : ℕ} {guard : WriterGuard} (h : s.guards.lookup id = some guard) :
    (s.Keeps (.release id) guard.regionId ↔
      guard.released = true ∨ ¬ s.manager.Names guard.regionId guard.writerNodeId) ∧
    (s.Keeps (.drop id) guard.regionId ↔
      guard.released = true ∨ ¬ s.manager.Names guard.regionId guard.writerNodeId) := by
  constructor
  · rw [← WriterGuard.drop_keeps_iff, ← WriterGuard.release_manager]
    simp [Keeps, step, h]
  · rw [← WriterGuard.drop_keeps_iff]
    simp [Keeps, step, h]

variable {regionId : RegionId} {node : UInt16}

theorem names_of_step {call : GuardCall} (h : (s.step call).1.manager.Names regionId node) :
    s.manager.Names regionId node ∨
      ∃ g ∈ (s.step call).2, g.regionId = regionId ∧ g.node = node := by
  cases call with
  | manager call => exact CoherenceManager.names_of_leaseStep call h
  | create va r homeNodeId writerNodeId epoch => exact Or.inl h
  | release id =>
    simp only [step] at h
    split at h
    · exact Or.inl h
    · rw [WriterGuard.release_manager] at h
      exact Or.inl (WriterGuard.names_of_drop h)
  | drop id =>
    simp only [step] at h
    split at h
    · exact Or.inl h
    · exact Or.inl (WriterGuard.names_of_drop h)

/-- A writer of the region is the node of a grant in the log. -/
def NamedByGrant (regionId : RegionId) (node : UInt16) (s : GuardState) (log : List Grant) :
    Prop :=
  s.manager.Names regionId node → ∃ g ∈ log, g.regionId = regionId ∧ g.node = node

theorem NamedByGrant.step {log : List Grant} (h : NamedByGrant regionId node s log)
    (call : GuardCall) :
    NamedByGrant regionId node (s.step call).1 (log ++ (s.step call).2) := by
  intro hnames
  rcases names_of_step hnames with hold | ⟨g, hg, hgrant⟩
  · obtain ⟨g, hg, hgrant⟩ := h hold
    exact ⟨g, List.mem_append_left _ hg, hgrant⟩
  · exact ⟨g, List.mem_append_right _ hg, hgrant⟩

theorem not_names_run (h : ¬ s.manager.Names regionId node) (calls : List GuardCall)
    (hgrants : ∀ g ∈ (Runs.run step s calls).2, ¬ (g.regionId = regionId ∧ g.node = node)) :
    ¬ (Runs.run step s calls).1.manager.Names regionId node := by
  have hstart : NamedByGrant regionId node s [] := fun hnames => absurd hnames h
  have hrun := Runs.run_always (I := NamedByGrant regionId node)
    (fun s log call ih => ih.step call) hstart calls
  intro hnames
  obtain ⟨g, hg, hgrant⟩ := hrun hnames
  exact hgrants g hg hgrant

/-- A guard leaves the writer and the epoch alone if and only if it was released
already or the writer recorded by then is not its node; the latter holds from the
end of a tenure until the node's next grant. -/
theorem guard_keeps_iff (s : GuardState) (calls : List GuardCall) (id : ℕ) (guard : WriterGuard)
    (h : (Runs.run step s calls).1.guards.lookup id = some guard) :
    (∀ call ∈ [GuardCall.release id, .drop id],
      ((Runs.run step s calls).1.Keeps call guard.regionId ↔ guard.released = true ∨
        ¬ (Runs.run step s calls).1.manager.Names guard.regionId guard.writerNodeId)) ∧
    ∀ earlier later, calls = earlier ++ later →
      ¬ (Runs.run step s earlier).1.manager.Names guard.regionId guard.writerNodeId →
      (∀ g ∈ (Runs.run step (Runs.run step s earlier).1 later).2,
        ¬ (g.regionId = guard.regionId ∧ g.node = guard.writerNodeId)) →
      ∀ call ∈ [GuardCall.release id, .drop id],
        (Runs.run step s calls).1.Keeps call guard.regionId := by
  obtain ⟨hrelease, hdrop⟩ := keeps_iff h
  have hiff : ∀ call ∈ [GuardCall.release id, .drop id],
      ((Runs.run step s calls).1.Keeps call guard.regionId ↔ guard.released = true ∨
        ¬ (Runs.run step s calls).1.manager.Names guard.regionId guard.writerNodeId) := by
    simp [hrelease, hdrop]
  refine ⟨hiff, ?_⟩
  rintro earlier later rfl hended hgrants call hcall
  refine (hiff call hcall).mpr (Or.inr ?_)
  rw [Runs.run_append]
  exact not_names_run hended later hgrants

def guardedState : GuardState :=
  (Runs.run step ⟨leasedManager, ∅, 0⟩
    [.manager (.acquireWriter 0 ⟨1⟩ 2), .create (.new ⟨1⟩ 0) ⟨1⟩ 1 2 0]).1

theorem guard_keeps_iff_swept :
    (Runs.run step guardedState [.manager (.checkLeaseExpiry (fromMillis 5001)),
      .manager (.acquireWriter (fromMillis 5001) ⟨1⟩ 3)]).1.Keeps (.drop 0) ⟨1⟩ := by
  apply (guard_keeps_iff guardedState [.manager (.checkLeaseExpiry (fromMillis 5001)),
    .manager (.acquireWriter (fromMillis 5001) ⟨1⟩ 3)] 0 (.new (.new ⟨1⟩ 0) ⟨1⟩ 1 2 0) rfl).2
    [.manager (.checkLeaseExpiry (fromMillis 5001))]
    [.manager (.acquireWriter (fromMillis 5001) ⟨1⟩ 3)] rfl
  · rintro ⟨info, hinfo, -⟩
    cases hinfo
  · intro g hg
    obtain rfl := List.mem_singleton.mp hg
    rintro ⟨-, hnode⟩
    cases hnode
  · simp

/-- The node has the lock again: its old guard releases the new tenure. -/
theorem stale_guard_releases_new_tenure :
    let s := (Runs.run step guardedState [.manager (.checkLeaseExpiry (fromMillis 5001)),
      .manager (.acquireWriter (fromMillis 5001) ⟨1⟩ 2)]).1
    s.manager.getWriter ⟨1⟩ = some ⟨2, fromMillis 5001 + fromMillis 5000⟩ ∧
      s.manager.getEpoch ⟨1⟩ = some 1 ∧
      (s.step (.drop 0)).1.manager.getWriter ⟨1⟩ = none ∧
      (s.step (.drop 0)).1.manager.getEpoch ⟨1⟩ = some 2 :=
  ⟨rfl, rfl, rfl, rfl⟩

end GuardState
end UniBus.Managed
