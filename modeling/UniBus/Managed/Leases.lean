import UniBus.Managed.Coherence

/-!
# Leases of the writer lock

Runs of the coherence manager with every call that touches a region. A call that
reads the clock carries its reading, and the state remembers the last one. The
log records each grant with its time and the epoch it was given.
-/
namespace UniBus.Managed

inductive LeaseCall
  | registerRegion (regionId : RegionId) (mrHandle : UInt32) (baseOffset len : UInt64)
  | unregisterRegion (regionId : RegionId)
  | acquireWriter (now : Instant) (regionId : RegionId) (node : UInt16)
  | releaseWriter (regionId : RegionId) (node : UInt16)
  | checkLeaseExpiry (now : Instant)
  | addReader (regionId : RegionId) (node : UInt16)
  | handleInvalidateAck (regionId : RegionId) (node : UInt16)
  | removeReader (regionId : RegionId) (node : UInt16)
  | bumpEpoch (regionId : RegionId)
  deriving DecidableEq

namespace LeaseCall

/-- The clock reading of a call, if it makes one. -/
def time : LeaseCall → Option Instant
  | acquireWriter now .. => some now
  | checkLeaseExpiry now => some now
  | _ => none

/-- The calls that give a region a new home state or take it away. -/
def Registers (regionId : RegionId) : LeaseCall → Prop
  | registerRegion r .. => r = regionId
  | unregisterRegion r => r = regionId
  | _ => False

end LeaseCall

/-- A successful acquisition. -/
structure Grant where
  now : Instant
  regionId : RegionId
  node : UInt16
  epoch : UInt64
  deriving DecidableEq

namespace CoherenceManager

variable (c : CoherenceManager)

def leaseStep : LeaseCall → CoherenceManager × List Grant
  | .registerRegion regionId mrHandle baseOffset len =>
    (c.registerRegion regionId mrHandle baseOffset len, [])
  | .unregisterRegion regionId => (c.unregisterRegion regionId, [])
  | .acquireWriter now regionId node =>
    match c.acquireWriter now regionId node with
    | (c, .granted _ epoch) => (c, [⟨now, regionId, node, epoch⟩])
    | (c, _) => (c, [])
  | .releaseWriter regionId node => ((c.releaseWriter regionId node).1, [])
  | .checkLeaseExpiry now => ((c.checkLeaseExpiry now).1, [])
  | .addReader regionId node => ((c.addReader regionId node).1, [])
  | .handleInvalidateAck regionId node => ((c.handleInvalidateAck regionId node).1, [])
  | .removeReader regionId node => ((c.removeReader regionId node).1, [])
  | .bumpEpoch regionId => ((c.bumpEpoch regionId).1, [])

end CoherenceManager

structure LeaseState where
  manager : CoherenceManager
  clock : Instant

namespace LeaseState

def step (s : LeaseState) (call : LeaseCall) : LeaseState × List Grant :=
  (⟨(s.manager.leaseStep call).1, call.time.getD s.clock⟩, (s.manager.leaseStep call).2)

def acquired (c : CoherenceManager) (now : Instant) (regionId : RegionId) (node : UInt16) :
    LeaseState :=
  ⟨(c.acquireWriter now regionId node).1, now⟩

def OnTime (s : LeaseState) (call : LeaseCall) : Prop := ∀ now ∈ call.time, s.clock ≤ now

end LeaseState

/-! ## What a call does to a region -/

namespace CoherenceManager

variable {c : CoherenceManager} {regionId : RegionId} {s : RegionHomeState}

theorem lookup_modifyState_map (r : RegionId) (f : RegionHomeState → RegionHomeState) :
    (c.modifyState r f).homeStates.lookup regionId =
      (c.homeStates.lookup regionId).map fun s => if r = regionId then f s else s := by
  by_cases hr : r = regionId
  · subst hr
    simp [modifyState, Maps.lookup_modify]
  · simp [modifyState, Maps.lookup_modify_ne (Ne.symm hr), hr]

theorem lookup_modifyState (r : RegionId) (f : RegionHomeState → RegionHomeState)
    (h : c.homeStates.lookup regionId = some s) :
    (c.modifyState r f).homeStates.lookup regionId = some (if r = regionId then f s else s) := by
  rw [lookup_modifyState_map, h, Option.map_some]

/-- An acquisition of a registered region is denied to everyone but the holder of
an unexpired lock, and granted otherwise. -/
theorem acquireWriter_eq (now : Instant) (node : UInt16)
    (h : c.homeStates.lookup regionId = some s) :
    (∃ other, holder s now node = some other ∧
      (c.acquireWriter now regionId node).1.homeStates = c.homeStates ∧
      (c.acquireWriter now regionId node).2 =
        .denied regionId ("writer node " ++ toString other ++ " holds the lock")) ∨
    (holder s now node = none ∧
      c.acquireWriter now regionId node =
        (c.modifyState regionId fun s =>
          { s with writer := some ⟨node, now + fromMillis c.writerLeaseMs⟩ },
          .granted regionId s.epoch)) := by
  unfold acquireWriter
  rw [h]
  dsimp only
  cases holder s now node with
  | some other => exact Or.inl ⟨other, rfl, rfl, rfl⟩
  | none => exact Or.inr ⟨rfl, rfl⟩

theorem releaseWriter_homeStates (node : UInt16) (h : c.homeStates.lookup regionId = some s) :
    (c.releaseWriter regionId node).1.homeStates =
      if s.writer.any fun info => info.writerNodeId == node then
        (c.modifyState regionId fun s => { s with writer := none }.bumpEpoch).homeStates
      else c.homeStates := by
  unfold releaseWriter
  rw [h]
  dsimp only
  cases hwriter : s.writer with
  | none => rfl
  | some info =>
    by_cases hnode : info.writerNodeId = node
    · simp only [hnode, if_true, Option.any_some, beq_self_eq_true]
      split <;> rfl
    · simp [hnode]

variable {r : RegionId} {now : Instant} {node : UInt16}

theorem acquireWriter_lookup_ne (hr : r ≠ regionId) (now : Instant) (node : UInt16) :
    (c.acquireWriter now r node).1.homeStates.lookup regionId =
      c.homeStates.lookup regionId := by
  unfold acquireWriter
  split
  · rfl
  · split
    · rfl
    · exact Maps.lookup_modify_ne (Ne.symm hr) _

theorem releaseWriter_lookup_ne (hr : r ≠ regionId) (node : UInt16) :
    (c.releaseWriter r node).1.homeStates.lookup regionId = c.homeStates.lookup regionId := by
  cases h : c.homeStates.lookup r with
  | none => simp [releaseWriter, h]
  | some s =>
    rw [releaseWriter_homeStates node h]
    split_ifs
    · exact Maps.lookup_modify_ne (Ne.symm hr) _
    · rfl

theorem leaseStep_acquireWriter_fst (now : Instant) (r : RegionId) (node : UInt16) :
    (c.leaseStep (.acquireWriter now r node)).1 = (c.acquireWriter now r node).1 := by
  unfold leaseStep
  dsimp only
  split <;> simp_all

theorem leaseStep_of_denied {reason : String}
    (h : (c.acquireWriter now r node).2 = .denied r reason) :
    (c.leaseStep (.acquireWriter now r node)).2 = [] := by
  unfold leaseStep
  dsimp only
  split
  · simp_all
  · rfl

theorem regionId_of_mem_acquired {g : Grant} (h : g ∈ (c.leaseStep (.acquireWriter now r node)).2) :
    g.regionId = r := by
  unfold leaseStep at h
  dsimp only at h
  split at h
  · rw [List.mem_singleton.mp h]
  · cases h

/-- How one call can change the writer and the epoch of a registered region. -/
inductive Effect (leaseMs : ℕ) (regionId : RegionId) :
    LeaseCall → RegionHomeState → RegionHomeState → List Grant → Prop
  | kept {call : LeaseCall} {s s' : RegionHomeState} {grants : List Grant}
      (hwriter : s'.writer = s.writer) (hepoch : s'.epoch = s.epoch)
      (hgrants : ∀ g ∈ grants, g.regionId ≠ regionId) :
      Effect leaseMs regionId call s s' grants
  | granted {s : RegionHomeState} (now : Instant) (node : UInt16)
      (hholder : holder s now node = none) :
      Effect leaseMs regionId (.acquireWriter now regionId node) s
        { s with writer := some ⟨node, now + fromMillis leaseMs⟩ } [⟨now, regionId, node, s.epoch⟩]
  | ended {call : LeaseCall} {s : RegionHomeState} (info : WriterInfo)
      (hwriter : s.writer = some info)
      (hcall : call = .releaseWriter regionId info.writerNodeId ∨
        ∃ now, call = .checkLeaseExpiry now ∧ info.leaseDeadline < now) :
      Effect leaseMs regionId call s { s with writer := none }.bumpEpoch []
  | bumped {s : RegionHomeState} : Effect leaseMs regionId (.bumpEpoch regionId) s s.bumpEpoch []

theorem leaseStep_effect {call : LeaseCall} (h : c.homeStates.lookup regionId = some s)
    (hcall : ¬ call.Registers regionId) :
    ∃ s', (c.leaseStep call).1.homeStates.lookup regionId = some s' ∧
      Effect c.writerLeaseMs regionId call s s' (c.leaseStep call).2 := by
  cases call with
  | registerRegion r mrHandle baseOffset len =>
    refine ⟨s, ?_, .kept rfl rfl (by simp [leaseStep])⟩
    rw [← h]
    exact AList.lookup_insert_ne (Ne.symm hcall)
  | unregisterRegion r =>
    refine ⟨s, ?_, .kept rfl rfl (by simp [leaseStep])⟩
    rw [← h]
    exact AList.lookup_erase_ne (Ne.symm hcall)
  | acquireWriter now r node =>
    by_cases hr : r = regionId
    · subst hr
      rcases acquireWriter_eq now node h with ⟨other, -, hstates, hdenied⟩ | ⟨hholder, hgranted⟩
      · rw [leaseStep_acquireWriter_fst, leaseStep_of_denied hdenied, hstates]
        exact ⟨s, h, .kept rfl rfl fun g hg => by cases hg⟩
      · simp only [leaseStep, hgranted]
        rw [lookup_modifyState r _ h, if_pos rfl]
        exact ⟨_, rfl, .granted now node hholder⟩
    · refine ⟨s, ?_, .kept rfl rfl ?_⟩
      · rw [leaseStep_acquireWriter_fst, acquireWriter_lookup_ne hr, h]
      · intro g hg
        rw [regionId_of_mem_acquired hg]
        exact hr
  | releaseWriter r node =>
    by_cases hr : r = regionId
    · subst hr
      simp only [leaseStep]
      rw [releaseWriter_homeStates node h]
      cases hwriter : s.writer with
      | none => exact ⟨s, h, .kept rfl rfl (by simp)⟩
      | some info =>
        by_cases hnode : info.writerNodeId = node
        · rw [if_pos (by simp [hnode]), lookup_modifyState r _ h, if_pos rfl]
          exact ⟨_, rfl, .ended info hwriter (Or.inl (by rw [hnode]))⟩
        · rw [if_neg (by simp [hnode])]
          exact ⟨s, h, .kept rfl rfl (by simp)⟩
    · refine ⟨s, ?_, .kept rfl rfl (by simp [leaseStep])⟩
      rw [← h]
      exact releaseWriter_lookup_ne hr node
  | checkLeaseExpiry now =>
    simp only [leaseStep, checkLeaseExpiry, Maps.lookup_mapValues, h, Option.map_some]
    cases hexpired : s.expiredWriter now with
    | none => exact ⟨s, rfl, .kept rfl rfl (by simp)⟩
    | some node =>
      obtain ⟨info, hwriter, hnow⟩ := RegionHomeState.expiredWriter_eq_some hexpired
      exact ⟨_, rfl, .ended info hwriter (Or.inr ⟨now, rfl, hnow⟩)⟩
  | addReader r node =>
    refine ⟨_, lookup_modifyState r _ h, .kept ?_ ?_ (by simp [leaseStep])⟩
    all_goals split_ifs <;> rfl
  | handleInvalidateAck r node =>
    refine ⟨_, lookup_modifyState r _ h, .kept ?_ ?_ (by simp [leaseStep])⟩
    all_goals split_ifs <;> rfl
  | removeReader r node =>
    refine ⟨_, lookup_modifyState r _ h, .kept ?_ ?_ (by simp [leaseStep])⟩
    all_goals split_ifs <;> rfl
  | bumpEpoch r =>
    refine ⟨_, lookup_modifyState r _ h, ?_⟩
    by_cases hr : r = regionId
    · subst hr
      rw [if_pos rfl]
      exact .bumped
    · rw [if_neg hr]
      exact .kept rfl rfl (by simp [leaseStep])

@[simp] theorem leaseStep_writerLeaseMs (call : LeaseCall) :
    (c.leaseStep call).1.writerLeaseMs = c.writerLeaseMs := by
  cases call with
  | acquireWriter now r node =>
    rw [leaseStep_acquireWriter_fst, acquireWriter]
    split
    · rfl
    · split <;> rfl
  | releaseWriter r node =>
    simp only [leaseStep, releaseWriter]
    split
    · rfl
    · split
      · rfl
      · split_ifs
        · split <;> rfl
        · rfl
  | _ => rfl

/-! ## Exclusion -/

theorem writer_of_granted {epoch : UInt64}
    (h : (c.acquireWriter now regionId node).2 = .granted regionId epoch) :
    (c.acquireWriter now regionId node).1.writerLeaseMs = c.writerLeaseMs ∧
      ∃ s, (c.acquireWriter now regionId node).1.homeStates.lookup regionId = some s ∧
        s.writer = some ⟨node, now + fromMillis c.writerLeaseMs⟩ := by
  cases hlookup : c.homeStates.lookup regionId with
  | none => simp [acquireWriter, hlookup] at h
  | some s =>
    rcases acquireWriter_eq now node hlookup with ⟨other, -, -, hdenied⟩ | ⟨-, hgranted⟩
    · rw [hdenied] at h
      cases h
    · rw [hgranted]
      refine ⟨rfl, _, lookup_modifyState regionId _ hlookup, ?_⟩
      rw [if_pos rfl]

/-- What the holder of an unexpired lock can rely on. -/
structure Excludes (c : CoherenceManager) (regionId : RegionId) (node : UInt16) (now : Instant) :
    Prop where
  writer : ∃ info, c.getWriter regionId = some info ∧ info.writerNodeId = node
  acquire : ∀ other ≠ node,
    (c.acquireWriter now regionId other).2 =
        .denied regionId ("writer node " ++ toString node ++ " holds the lock") ∧
      (c.acquireWriter now regionId other).1.getWriter regionId = c.getWriter regionId
  release : ∀ other ≠ node, c.releaseWriter regionId other = (c, false)
  expiry : (c.checkLeaseExpiry now).1.getWriter regionId = c.getWriter regionId

theorem excludes_of_writer {info : WriterInfo} (h : c.homeStates.lookup regionId = some s)
    (hwriter : s.writer = some info) (hnow : now ≤ info.leaseDeadline) :
    c.Excludes regionId info.writerNodeId now := by
  have hget : c.getWriter regionId = some info := by
    rw [getWriter, h]
    exact hwriter
  constructor
  · exact ⟨info, hget, rfl⟩
  · intro other hother
    have hholder : holder s now other = some info.writerNodeId := by
      simp [holder, hwriter, hnow, Ne.symm hother]
    rcases acquireWriter_eq now other h with ⟨node, hnode, hstates, hdenied⟩ | ⟨hnone, -⟩
    · obtain rfl : info.writerNodeId = node := Option.some.inj (hholder.symm.trans hnode)
      exact ⟨hdenied, by rw [getWriter, hstates, getWriter]⟩
    · rw [hholder] at hnone
      cases hnone
  · intro other hother
    simp [releaseWriter, h, hwriter, Ne.symm hother]
  · have hexpired : s.expiredWriter now = none := by
      simp [RegionHomeState.expiredWriter, hwriter, Nat.not_lt.mpr hnow]
    rw [getWriter, checkLeaseExpiry, Maps.lookup_mapValues, getWriter, h]
    simp [hexpired]

end CoherenceManager

/-- The deadline of the last grant of the region to the node, `first` before any. -/
def lastDeadline (leaseMs : ℕ) (regionId : RegionId) (node : UInt16) (first : Instant)
    (log : List Grant) : Instant :=
  let own := log.filter fun g => g.regionId = regionId ∧ g.node = node
  (own.getLast?.map fun g => g.now + fromMillis leaseMs).getD first

@[simp] theorem lastDeadline_nil (leaseMs : ℕ) (regionId : RegionId) (node : UInt16)
    (first : Instant) : lastDeadline leaseMs regionId node first [] = first := rfl

theorem lastDeadline_append_other {leaseMs : ℕ} {regionId : RegionId} {node : UInt16}
    {first : Instant} {log grants : List Grant} (h : ∀ g ∈ grants, g.regionId ≠ regionId) :
    lastDeadline leaseMs regionId node first (log ++ grants) =
      lastDeadline leaseMs regionId node first log := by
  have hnil : grants.filter (fun g => g.regionId = regionId ∧ g.node = node) = [] := by
    rw [List.filter_eq_nil_iff]
    intro g hg
    simp [h g hg]
  rw [lastDeadline, List.filter_append, hnil, List.append_nil, lastDeadline]

theorem lastDeadline_append_own {leaseMs : ℕ} {regionId : RegionId} {node : UInt16}
    {first now : Instant} {epoch : UInt64} {log : List Grant} :
    lastDeadline leaseMs regionId node first (log ++ [⟨now, regionId, node, epoch⟩]) =
      now + fromMillis leaseMs := by
  rw [lastDeadline, List.filter_append, List.filter_cons_of_pos (by simp), List.filter_nil,
    List.getLast?_concat, Option.map_some, Option.getD_some]

namespace LeaseState

/-- The call falls into the time in which the node holds the lock: it has not
released it, and the clock has not passed the deadline of its last grant. -/
structure HeldBy (leaseMs : ℕ) (regionId : RegionId) (node : UInt16) (first : Instant)
    (s : LeaseState) (log : List Grant) (call : LeaseCall) : Prop where
  onTime : s.OnTime call
  registered : ¬ call.Registers regionId
  unreleased : call ≠ .releaseWriter regionId node
  unexpired : ∀ now ∈ call.time, now ≤ lastDeadline leaseMs regionId node first log

/-- The writer record is that of the last grant. -/
structure Holds (leaseMs : ℕ) (regionId : RegionId) (node : UInt16) (first : Instant)
    (s : LeaseState) (log : List Grant) : Prop where
  lease : s.manager.writerLeaseMs = leaseMs
  writer : ∃ state, s.manager.homeStates.lookup regionId = some state ∧
    state.writer = some ⟨node, lastDeadline leaseMs regionId node first log⟩

variable {leaseMs : ℕ} {regionId : RegionId} {node : UInt16} {first : Instant} {s : LeaseState}
  {log : List Grant} {call : LeaseCall}

theorem Holds.step (h : s.Holds leaseMs regionId node first log)
    (hcall : s.HeldBy leaseMs regionId node first log call) :
    (s.step call).1.Holds leaseMs regionId node first (log ++ (s.step call).2) := by
  obtain ⟨state, hlookup, hwriter⟩ := h.writer
  obtain ⟨state', hlookup', heffect⟩ := CoherenceManager.leaseStep_effect hlookup hcall.registered
  refine ⟨(CoherenceManager.leaseStep_writerLeaseMs call).trans h.lease, state', hlookup', ?_⟩
  simp only [LeaseState.step]
  generalize (s.manager.leaseStep call).2 = grants at heffect
  cases heffect with
  | kept hsame hepoch hgrants =>
    rw [hsame, hwriter, lastDeadline_append_other hgrants]
  | granted now other hholder =>
    have hnode : other = node := by
      by_contra hne
      have hnow := hcall.unexpired now rfl
      simp [CoherenceManager.holder, hwriter, hnow, Ne.symm hne] at hholder
    subst hnode
    rw [lastDeadline_append_own, h.lease]
  | ended info hinfo hend =>
    obtain rfl := Option.some.inj (hwriter.symm.trans hinfo)
    rcases hend with rfl | ⟨now, rfl, hlate⟩
    · exact absurd rfl hcall.unreleased
    · exact absurd (hcall.unexpired now rfl) (Nat.not_le.mpr hlate)
  | bumped => simpa [RegionHomeState.bumpEpoch] using hwriter

/-- The region keeps its home state, and its epoch can be incremented. -/
structure EpochBelowMax (regionId : RegionId) (s : LeaseState) (call : LeaseCall) : Prop where
  onTime : s.OnTime call
  registered : ¬ call.Registers regionId
  below : s.manager.getEpoch regionId ≠ some 0xFFFF_FFFF_FFFF_FFFF

/-- The region's epoch is at least the given one. -/
def EpochFrom (regionId : RegionId) (epoch : UInt64) (s : LeaseState) : Prop :=
  ∃ later, s.manager.getEpoch regionId = some later ∧ epoch ≤ later

end LeaseState

theorem RegionHomeState.epoch_lt_bumpEpoch {s : RegionHomeState}
    (h : s.epoch ≠ 0xFFFF_FFFF_FFFF_FFFF) : s.epoch < s.bumpEpoch.epoch := by
  rw [RegionHomeState.bumpEpoch, UInt64.lt_iff_toNat_lt, UInt64.toNat_add]
  have hne : s.epoch.toNat ≠ 0xFFFF_FFFF_FFFF_FFFF := by
    intro heq
    apply h
    rw [← UInt64.toNat_inj, heq]
    decide
  have hlt := s.epoch.toNat_lt
  simp only [UInt64.reduceToNat]
  omega

theorem CoherenceManager.Effect.epoch_le {leaseMs : ℕ} {regionId : RegionId} {call : LeaseCall}
    {s s' : RegionHomeState} {grants : List Grant}
    (h : Effect leaseMs regionId call s s' grants) (hmax : s.epoch ≠ 0xFFFF_FFFF_FFFF_FFFF) :
    s.epoch ≤ s'.epoch := by
  have hbump := UInt64.le_of_lt (RegionHomeState.epoch_lt_bumpEpoch hmax)
  cases h with
  | kept hwriter hepoch hgrants => exact hepoch ▸ UInt64.le_refl _
  | granted now node hholder => exact UInt64.le_refl _
  | ended info hwriter hcall => exact hbump
  | bumped => exact hbump

theorem LeaseState.EpochFrom.step {regionId : RegionId} {epoch : UInt64} {s : LeaseState}
    {call : LeaseCall} (h : s.EpochFrom regionId epoch) (hcall : s.EpochBelowMax regionId call) :
    (s.step call).1.EpochFrom regionId epoch := by
  obtain ⟨later, hget, hle⟩ := h
  obtain ⟨state, hlookup, rfl⟩ := Option.map_eq_some_iff.mp hget
  obtain ⟨state', hlookup', heffect⟩ := CoherenceManager.leaseStep_effect hlookup hcall.registered
  have hmax : state.epoch ≠ 0xFFFF_FFFF_FFFF_FFFF := by
    intro heq
    exact hcall.below (by rw [hget, heq])
  have hget' : (s.step call).1.manager.getEpoch regionId = some state'.epoch := by
    rw [LeaseState.step, CoherenceManager.getEpoch, hlookup']
    rfl
  exact ⟨state'.epoch, hget', UInt64.le_trans hle (heffect.epoch_le hmax)⟩

/-- From a grant until the holder's release or the deadline of its last grant the
lock excludes every other node, and the epoch does not decrease as long as it has
not reached its maximum. -/
theorem writer_lock_exclusive (c : CoherenceManager) (regionId : RegionId) :
    (∀ now node epoch, (c.acquireWriter now regionId node).2 = .granted regionId epoch →
      ∀ calls, Runs.Meets LeaseState.step
          (LeaseState.HeldBy c.writerLeaseMs regionId node (now + fromMillis c.writerLeaseMs))
          (.acquired c now regionId node) [] calls →
        ∀ later, later ≤ lastDeadline c.writerLeaseMs regionId node
            (now + fromMillis c.writerLeaseMs)
            (Runs.run LeaseState.step (.acquired c now regionId node) calls).2 →
          (Runs.run LeaseState.step (.acquired c now regionId node) calls).1.manager.Excludes
            regionId node later) ∧
    ∀ clock epoch, c.getEpoch regionId = some epoch →
      ∀ calls, Runs.Meets LeaseState.step (fun s _ => s.EpochBelowMax regionId) ⟨c, clock⟩ []
          calls →
        (Runs.run LeaseState.step ⟨c, clock⟩ calls).1.EpochFrom regionId epoch := by
  constructor
  · intro now node epoch hgranted calls hmeets later hlater
    obtain ⟨hlease, state, hlookup, hwriter⟩ := CoherenceManager.writer_of_granted hgranted
    have hholds := Runs.run_invariant (fun s log call h hcall => LeaseState.Holds.step h hcall)
      ⟨hlease, state, hlookup, by rw [hwriter, lastDeadline_nil]⟩ hmeets
    obtain ⟨state', hlookup', hwriter'⟩ := hholds.writer
    exact CoherenceManager.excludes_of_writer hlookup' hwriter' hlater
  · intro clock epoch hepoch calls hmeets
    exact Runs.run_invariant
      (I := fun s _ => LeaseState.EpochFrom regionId epoch s)
      (fun s log call h hcall => h.step hcall) ⟨epoch, hepoch, UInt64.le_refl _⟩ hmeets

def leasedManager : CoherenceManager := (CoherenceManager.new 5000).registerRegion ⟨1⟩ 7 0 4096

theorem writer_lock_exclusive_renewed :
    ((LeaseState.acquired leasedManager 0 ⟨1⟩ 2).step
        (.acquireWriter (fromMillis 4000) ⟨1⟩ 2)).1.manager.Excludes ⟨1⟩ 2 (fromMillis 9000) ∧
      ((LeaseState.mk leasedManager 0).step (.bumpEpoch ⟨1⟩)).1.EpochFrom ⟨1⟩ 0 := by
  constructor
  · apply (writer_lock_exclusive leasedManager ⟨1⟩).1 0 2 0 rfl
      [.acquireWriter (fromMillis 4000) ⟨1⟩ 2]
    · refine ⟨⟨?_, ?_, ?_, ?_⟩, trivial⟩
      · intro now hnow
        exact Nat.zero_le _
      · simp [LeaseCall.Registers]
      · simp
      · intro now hnow
        obtain rfl := Option.some.inj hnow
        simp [lastDeadline, fromMillis, leasedManager, CoherenceManager.new,
          CoherenceManager.registerRegion]
    · exact Nat.le_refl _
  · apply (writer_lock_exclusive leasedManager ⟨1⟩).2 0 0 rfl [.bumpEpoch ⟨1⟩]
    refine ⟨⟨?_, ?_, ?_⟩, trivial⟩
    · intro now hnow
      cases hnow
    · simp [LeaseCall.Registers]
    · decide

theorem getEpoch_run_bumpEpoch {regionId : RegionId} {s : LeaseState} {epoch : UInt64}
    (h : s.manager.getEpoch regionId = some epoch) (n : ℕ) :
    (Runs.run LeaseState.step s (List.replicate n (.bumpEpoch regionId))).1.manager.getEpoch
      regionId = some (epoch + UInt64.ofNat n) := by
  induction n generalizing s epoch with
  | zero => simpa using h
  | succ n ih =>
    obtain ⟨state, hlookup, rfl⟩ := Option.map_eq_some_iff.mp h
    have hstep : (s.step (.bumpEpoch regionId)).1.manager.getEpoch regionId =
        some (state.epoch + 1) := by
      rw [LeaseState.step, CoherenceManager.getEpoch]
      simp only [CoherenceManager.leaseStep, CoherenceManager.bumpEpoch]
      rw [CoherenceManager.lookup_modifyState regionId _ hlookup, if_pos rfl]
      rfl
    rw [List.replicate_succ, Runs.run_cons, ih hstep]
    rw [UInt64.ofNat_add, UInt64.add_assoc, UInt64.add_comm 1]
    rfl

/-- `fetch_add` wraps: one more call of `bump_epoch` after `2 ^ 64 - 1` of them
takes the epoch back to `0`. -/
theorem epoch_wraps :
    (Runs.run LeaseState.step ⟨leasedManager, 0⟩
        (List.replicate (2 ^ 64 - 1) (.bumpEpoch ⟨1⟩))).1.manager.getEpoch ⟨1⟩ =
      some 0xFFFF_FFFF_FFFF_FFFF ∧
    (Runs.run LeaseState.step ⟨leasedManager, 0⟩
        (List.replicate (2 ^ 64) (.bumpEpoch ⟨1⟩))).1.manager.getEpoch ⟨1⟩ = some 0 := by
  have h : leasedManager.getEpoch ⟨1⟩ = some 0 := rfl
  constructor
  · rw [getEpoch_run_bumpEpoch (s := ⟨leasedManager, 0⟩) h]
    decide
  · rw [getEpoch_run_bumpEpoch (s := ⟨leasedManager, 0⟩) h]
    decide

/-! ## Fencing -/

namespace CoherenceManager

variable {c : CoherenceManager} {regionId : RegionId}

theorem lookup_modifyState_none (r : RegionId) (f : RegionHomeState → RegionHomeState)
    (h : c.homeStates.lookup regionId = none) :
    (c.modifyState r f).homeStates.lookup regionId = none := by
  rw [lookup_modifyState_map, h, Option.map_none]

theorem leaseStep_of_none {call : LeaseCall} (h : c.homeStates.lookup regionId = none)
    (hcall : ¬ call.Registers regionId) :
    (c.leaseStep call).1.homeStates.lookup regionId = none ∧
      ∀ g ∈ (c.leaseStep call).2, g.regionId ≠ regionId := by
  cases call with
  | registerRegion r mrHandle baseOffset len =>
    refine ⟨?_, by simp [leaseStep]⟩
    rw [← h]
    exact AList.lookup_insert_ne (Ne.symm hcall)
  | unregisterRegion r =>
    refine ⟨?_, by simp [leaseStep]⟩
    rw [← h]
    exact AList.lookup_erase_ne (Ne.symm hcall)
  | acquireWriter now r node =>
    by_cases hr : r = regionId
    · subst hr
      simp [leaseStep, acquireWriter, h]
    · rw [leaseStep_acquireWriter_fst, acquireWriter_lookup_ne hr]
      refine ⟨h, ?_⟩
      intro g hg
      rw [regionId_of_mem_acquired hg]
      exact hr
  | releaseWriter r node =>
    by_cases hr : r = regionId
    · subst hr
      simp [leaseStep, releaseWriter, h]
    · exact ⟨(releaseWriter_lookup_ne hr node).trans h, by simp [leaseStep]⟩
  | checkLeaseExpiry now => simp [leaseStep, checkLeaseExpiry, Maps.lookup_mapValues, h]
  | addReader r node => exact ⟨lookup_modifyState_none r _ h, by simp [leaseStep]⟩
  | handleInvalidateAck r node => exact ⟨lookup_modifyState_none r _ h, by simp [leaseStep]⟩
  | removeReader r node => exact ⟨lookup_modifyState_none r _ h, by simp [leaseStep]⟩
  | bumpEpoch r => exact ⟨lookup_modifyState_none r _ h, by simp [leaseStep]⟩

end CoherenceManager

/-- A grant has a larger epoch than every earlier grant of the region to another node. -/
def Fences (regionId : RegionId) (before : List Grant) (g : Grant) : Prop :=
  g.regionId = regionId →
    ∀ g' ∈ before, g'.regionId = regionId → g'.node ≠ g.node → g'.epoch < g.epoch

namespace LeaseState

/-- No acquisition meets the expired record of another node, a region that has
been granted is not registered anew, and the epoch can be incremented. -/
structure SweptFirst (regionId : RegionId) (s : LeaseState) (log : List Grant)
    (call : LeaseCall) : Prop where
  onTime : s.OnTime call
  below : s.manager.getEpoch regionId ≠ some 0xFFFF_FFFF_FFFF_FFFF
  fresh : ∀ mrHandle baseOffset len, call = .registerRegion regionId mrHandle baseOffset len →
    ∀ g ∈ log, g.regionId ≠ regionId
  swept : ∀ now node, call = .acquireWriter now regionId node →
    ∀ info, s.manager.getWriter regionId = some info → info.leaseDeadline < now →
      info.writerNodeId = node

/-- A grant that still has the region's epoch is the one in force. -/
structure Fencing (regionId : RegionId) (s : LeaseState) (log : List Grant) : Prop where
  current : ∀ state, s.manager.homeStates.lookup regionId = some state →
    ∀ g ∈ log, g.regionId = regionId → g.epoch ≤ state.epoch ∧
      (g.epoch = state.epoch → ∃ info, state.writer = some info ∧ info.writerNodeId = g.node)
  fenced : Runs.Justified (Fences regionId) log

variable {regionId : RegionId} {s : LeaseState} {log : List Grant} {call : LeaseCall}

theorem Fencing.of_lookup_none {s' : LeaseState} {grants : List Grant}
    (h : s.Fencing regionId log) (hnone : s'.manager.homeStates.lookup regionId = none)
    (hgrants : ∀ g ∈ grants, g.regionId ≠ regionId) : s'.Fencing regionId (log ++ grants) := by
  constructor
  · intro state hstate
    rw [hnone] at hstate
    cases hstate
  · apply h.fenced.append
    rintro mid g after rfl hg
    exact absurd hg (hgrants g (by simp))

theorem Fencing.of_bumpEpoch {s' : LeaseState} {state state' : RegionHomeState}
    (h : s.Fencing regionId log) (hlookup : s.manager.homeStates.lookup regionId = some state)
    (hlookup' : s'.manager.homeStates.lookup regionId = some state')
    (hlt : state.epoch < state'.epoch) : s'.Fencing regionId log := by
  refine ⟨?_, h.fenced⟩
  intro state'' hstate'' g hg hregion
  obtain rfl := Option.some.inj (hlookup'.symm.trans hstate'')
  have hg := UInt64.lt_of_le_of_lt (h.current state hlookup g hg hregion).1 hlt
  exact ⟨UInt64.le_of_lt hg, fun heq => absurd heq (UInt64.ne_of_lt hg)⟩

theorem SweptFirst.writer_eq {state : RegionHomeState} {now : Instant} {node : UInt16}
    (hcall : s.SweptFirst regionId log (.acquireWriter now regionId node))
    (hlookup : s.manager.homeStates.lookup regionId = some state)
    (hholder : CoherenceManager.holder state now node = none) {info : WriterInfo}
    (hinfo : state.writer = some info) : info.writerNodeId = node := by
  by_contra hne
  have hlate : info.leaseDeadline < now := by
    by_contra hnow
    simp [CoherenceManager.holder, hinfo, hne, Nat.not_lt.mp hnow] at hholder
  apply hne
  apply hcall.swept now node rfl info _ hlate
  rw [CoherenceManager.getWriter, hlookup]
  exact hinfo

theorem Fencing.of_granted {s' : LeaseState} {state : RegionHomeState} {now : Instant}
    {node : UInt16} {info : WriterInfo} (h : s.Fencing regionId log)
    (hcall : s.SweptFirst regionId log (.acquireWriter now regionId node))
    (hlookup : s.manager.homeStates.lookup regionId = some state)
    (hholder : CoherenceManager.holder state now node = none) (hnode : info.writerNodeId = node)
    (hlookup' : s'.manager.homeStates.lookup regionId = some { state with writer := some info }) :
    s'.Fencing regionId (log ++ [⟨now, regionId, node, state.epoch⟩]) := by
  -- a grant that still has the epoch went to the same node
  have hold : ∀ g ∈ log, g.regionId = regionId → g.epoch = state.epoch → g.node = node := by
    intro g hg hregion heq
    obtain ⟨old, hold, hname⟩ := (h.current state hlookup g hg hregion).2 heq
    rw [← hname]
    exact hcall.writer_eq hlookup hholder hold
  constructor
  · intro state' hstate' g hg hregion
    obtain rfl := Option.some.inj (hlookup'.symm.trans hstate')
    rcases List.mem_append.mp hg with hg | hg
    · refine ⟨(h.current state hlookup g hg hregion).1, ?_⟩
      intro heq
      exact ⟨info, rfl, hnode.trans (hold g hg hregion heq).symm⟩
    · obtain rfl := List.mem_singleton.mp hg
      exact ⟨UInt64.le_refl _, fun _ => ⟨info, rfl, hnode⟩⟩
  · apply h.fenced.concat
    intro _ g hg hregion hne
    apply UInt64.lt_of_le_of_ne (h.current state hlookup g hg hregion).1
    intro heq
    exact hne (hold g hg hregion heq)

theorem Fencing.step (h : s.Fencing regionId log) (hcall : s.SweptFirst regionId log call) :
    (s.step call).1.Fencing regionId (log ++ (s.step call).2) := by
  by_cases hregisters : call.Registers regionId
  · cases call with
    | registerRegion r mrHandle baseOffset len =>
      obtain rfl : r = regionId := hregisters
      have hfresh := hcall.fresh mrHandle baseOffset len rfl
      simp only [LeaseState.step, CoherenceManager.leaseStep, List.append_nil]
      exact ⟨fun _ _ g hg hregion => absurd hregion (hfresh g hg), h.fenced⟩
    | unregisterRegion r =>
      obtain rfl : r = regionId := hregisters
      exact h.of_lookup_none (AList.lookup_erase _ _) (by simp [LeaseState.step,
        CoherenceManager.leaseStep])
    | _ => exact hregisters.elim
  · cases hlookup : s.manager.homeStates.lookup regionId with
    | none =>
      obtain ⟨hnone, hgrants⟩ := CoherenceManager.leaseStep_of_none hlookup hregisters
      exact h.of_lookup_none hnone hgrants
    | some state =>
      have hmax : state.epoch ≠ 0xFFFF_FFFF_FFFF_FFFF := by
        intro heq
        apply hcall.below
        rw [CoherenceManager.getEpoch, hlookup, Option.map_some, heq]
      have hbump := RegionHomeState.epoch_lt_bumpEpoch hmax
      obtain ⟨state', hlookup', heffect⟩ :=
        CoherenceManager.leaseStep_effect hlookup hregisters
      simp only [LeaseState.step]
      generalize (s.manager.leaseStep call).2 = grants at heffect
      cases heffect with
      | kept hwriter hepoch hgrants =>
        constructor
        · intro state'' hstate'' g hg hregion
          obtain rfl := Option.some.inj (hlookup'.symm.trans hstate'')
          rw [hepoch, hwriter]
          rcases List.mem_append.mp hg with hg | hg
          · exact h.current state hlookup g hg hregion
          · exact absurd hregion (hgrants g hg)
        · apply h.fenced.append
          rintro mid g after rfl hg
          exact absurd hg (hgrants g (by simp))
      | granted now node hholder => exact h.of_granted hcall hlookup hholder rfl hlookup'
      | ended info hwriter hend =>
        rw [List.append_nil]
        exact h.of_bumpEpoch hlookup hlookup' hbump
      | bumped =>
        rw [List.append_nil]
        exact h.of_bumpEpoch hlookup hlookup' hbump

end LeaseState

/-- In a run in which the sweep always comes before the next writer, each grant
has a larger epoch than the grants of other nodes before it. -/
theorem epochs_fence_tenures (leaseMs : ℕ) (clock : Instant) (regionId : RegionId)
    (calls : List LeaseCall)
    (h : Runs.Meets LeaseState.step (LeaseState.SweptFirst regionId) ⟨.new leaseMs, clock⟩ []
      calls) :
    Runs.Justified (Fences regionId)
      (Runs.run LeaseState.step ⟨.new leaseMs, clock⟩ calls).2 := by
  have hstart : LeaseState.Fencing regionId ⟨.new leaseMs, clock⟩ [] := by
    refine ⟨?_, Runs.justified_nil⟩
    intro state hstate g hg
    cases hg
  exact (Runs.run_invariant (fun s log call hs hcall => LeaseState.Fencing.step hs hcall) hstart
    h).fenced

theorem epochs_fence_tenures_swept :
    Runs.Justified (Fences ⟨1⟩)
      (Runs.run LeaseState.step ⟨.new 5000, 0⟩
        [.registerRegion ⟨1⟩ 7 0 4096, .acquireWriter 0 ⟨1⟩ 2,
          .checkLeaseExpiry (fromMillis 5001), .acquireWriter (fromMillis 5001) ⟨1⟩ 3]).2 ∧
    (Runs.run LeaseState.step ⟨.new 5000, 0⟩
        [.registerRegion ⟨1⟩ 7 0 4096, .acquireWriter 0 ⟨1⟩ 2,
          .checkLeaseExpiry (fromMillis 5001), .acquireWriter (fromMillis 5001) ⟨1⟩ 3]).2 =
      [⟨0, ⟨1⟩, 2, 0⟩, ⟨fromMillis 5001, ⟨1⟩, 3, 1⟩] := by
  refine ⟨?_, rfl⟩
  apply epochs_fence_tenures
  refine ⟨⟨by simp [LeaseState.OnTime, LeaseCall.time], by decide, ?_, ?_⟩,
    ⟨?_, by decide, ?_, ?_⟩, ⟨?_, by decide, ?_, ?_⟩, ⟨?_, by decide, ?_, ?_⟩, trivial⟩
  · intro mrHandle baseOffset len _ g hg
    cases hg
  · intro now node hcall
    cases hcall
  · intro now hnow
    exact Nat.zero_le now
  · intro mrHandle baseOffset len hcall
    cases hcall
  · intro now node hcall info hinfo
    cases hinfo
  · intro now hnow
    exact Nat.zero_le now
  · intro mrHandle baseOffset len hcall
    cases hcall
  · intro now node hcall
    cases hcall
  · intro now hnow
    obtain rfl := Option.some.inj hnow
    exact Nat.le_refl _
  · intro mrHandle baseOffset len hcall
    cases hcall
  · intro now node hcall info hinfo
    cases hinfo

/-- The next writer comes before the sweep: both grants have the same epoch. -/
theorem superseded_with_same_epoch :
    (Runs.run LeaseState.step ⟨.new 5000, 0⟩
        [.registerRegion ⟨1⟩ 7 0 4096, .acquireWriter 0 ⟨1⟩ 2,
          .acquireWriter (fromMillis 5001) ⟨1⟩ 3]).2 =
      [⟨0, ⟨1⟩, 2, 0⟩, ⟨fromMillis 5001, ⟨1⟩, 3, 0⟩] ∧
    ¬ Runs.Justified (Fences ⟨1⟩)
      (Runs.run LeaseState.step ⟨.new 5000, 0⟩
        [.registerRegion ⟨1⟩ 7 0 4096, .acquireWriter 0 ⟨1⟩ 2,
          .acquireWriter (fromMillis 5001) ⟨1⟩ 3]).2 := by
  have hlog : (Runs.run LeaseState.step ⟨.new 5000, 0⟩
      [.registerRegion ⟨1⟩ 7 0 4096, .acquireWriter 0 ⟨1⟩ 2,
        .acquireWriter (fromMillis 5001) ⟨1⟩ 3]).2 =
      [⟨0, ⟨1⟩, 2, 0⟩, ⟨fromMillis 5001, ⟨1⟩, 3, 0⟩] := rfl
  refine ⟨hlog, ?_⟩
  rw [hlog]
  intro h
  exact absurd (h [_] _ [] rfl rfl _ List.mem_cons_self rfl (by decide)) (by decide)

end UniBus.Managed
