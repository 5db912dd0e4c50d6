import UniBus.Managed.Coherence

/-!
# Writers and readers of one region

A grant does not wait for readers. What is left of the exclusion is stated over
the log of a run: the readers beside a writer are readers that its grant already
found, and that were not invalidated since.
-/
namespace UniBus.Managed

namespace CoherenceEvent

def regionId : CoherenceEvent → RegionId
  | registered regionId | granted regionId .. | left regionId _ => regionId

/-- The event ends what was known of the node as a reader since the last grant. -/
def Supersedes (regionId : RegionId) (node : UInt16) : CoherenceEvent → Prop
  | registered r => r = regionId
  | granted r .. => r = regionId
  | left r n => r = regionId ∧ n = node

theorem regionId_of_supersedes {regionId : RegionId} {node : UInt16} {ev : CoherenceEvent}
    (h : ev.Supersedes regionId node) : ev.regionId = regionId := by
  cases ev with
  | registered r => exact h
  | granted r => exact h
  | left r n => exact h.1

end CoherenceEvent

/-- At the most recent grant for the region, which went to `writer`, the node was
a reader, and it did not leave since. -/
def ReaderSinceGrant (log : List CoherenceEvent) (regionId : RegionId) (writer node : UInt16) :
    Prop :=
  ∃ before readers after, log = before ++ .granted regionId writer readers :: after ∧
    node ∈ readers ∧ ∀ ev ∈ after, ¬ ev.Supersedes regionId node

theorem ReaderSinceGrant.append {log events : List CoherenceEvent} {regionId : RegionId}
    {writer node : UInt16} (h : ReaderSinceGrant log regionId writer node)
    (hevents : ∀ ev ∈ events, ¬ ev.Supersedes regionId node) :
    ReaderSinceGrant (log ++ events) regionId writer node := by
  obtain ⟨before, readers, after, rfl, hnode, hafter⟩ := h
  refine ⟨before, readers, after ++ events, ?_, hnode, ?_⟩
  · rw [List.append_assoc, List.cons_append]
  · intro ev hev
    rcases List.mem_append.mp hev with hold | hnew
    · exact hafter ev hold
    · exact hevents ev hnew

namespace CoherenceManager

variable {c : CoherenceManager} {call : CoherenceCall} {regionId : RegionId}
  {s s' : RegionHomeState}

/-- How one call can change the state of a registered region. -/
inductive Change (c : CoherenceManager) (regionId : RegionId) :
    CoherenceCall → RegionHomeState → RegionHomeState → List CoherenceEvent → Prop
  | none {call : CoherenceCall} {s : RegionHomeState} {events : List CoherenceEvent}
      (h : ∀ ev ∈ events, ev.regionId ≠ regionId) : Change c regionId call s s events
  | joined {s : RegionHomeState} (node : UInt16) :
      Change c regionId (.addReader regionId node) s (s.addReader node) []
  | left {call : CoherenceCall} {s : RegionHomeState} (node : UInt16) :
      Change c regionId call s (s.removeReader node) [.left regionId node]
  | granted {s : RegionHomeState} (now : Instant) (node : UInt16)
      (h : holder s now node = .none) :
      Change c regionId (.acquireWriter now regionId node) s
        { s with writer := some ⟨node, now + fromMillis c.writerLeaseMs⟩ }
        [.granted regionId node s.readers]
  | released {s : RegionHomeState} (info : WriterInfo) (h : s.writer = some info) :
      Change c regionId (.releaseWriter regionId info.writerNodeId) s
        { s with writer := .none }.bumpEpoch []
  | expired {s : RegionHomeState} (now : Instant) (info : WriterInfo)
      (h : s.writer = some info) (hnow : info.leaseDeadline < now) :
      Change c regionId (.checkLeaseExpiry now) s { s with writer := .none }.bumpEpoch []

theorem Change.nothing : Change c regionId call s s [] :=
  .none fun _ hev => by cases hev

theorem Change.elsewhere {ev : CoherenceEvent} (h : ev.regionId ≠ regionId) :
    Change c regionId call s s [ev] := by
  apply Change.none
  intro ev' hev
  rw [List.mem_singleton.mp hev]
  exact h

theorem lookup_modifyState_cases {f : RegionHomeState → RegionHomeState} {r : RegionId}
    (h : (c.modifyState r f).homeStates.lookup regionId = some s') :
    (r = regionId ∧ ∃ s, c.homeStates.lookup regionId = some s ∧ s' = f s) ∨
      (r ≠ regionId ∧ c.homeStates.lookup regionId = some s') := by
  by_cases hr : r = regionId
  · subst hr
    simp only [modifyState, Maps.lookup_modify, Option.map_eq_some_iff] at h
    obtain ⟨s, hs, rfl⟩ := h
    exact Or.inl ⟨rfl, s, hs, rfl⟩
  · simp only [modifyState, Maps.lookup_modify_ne (Ne.symm hr)] at h
    exact Or.inr ⟨hr, h⟩

theorem change_acquireWriter {now : Instant} {r : RegionId} {node : UInt16}
    (h : (c.step (.acquireWriter now r node)).1.homeStates.lookup regionId = some s') :
    ∃ s, c.homeStates.lookup regionId = some s ∧
      Change c regionId (.acquireWriter now r node) s s'
        (c.step (.acquireWriter now r node)).2 := by
  cases hlookup : c.homeStates.lookup r with
  | none =>
    simp only [step, acquireWriter, hlookup] at h ⊢
    exact ⟨s', h, .nothing⟩
  | some state =>
    cases hholder : holder state now node with
    | some other =>
      simp only [step, acquireWriter, hlookup, hholder] at h ⊢
      exact ⟨s', h, .nothing⟩
    | none =>
      simp only [step, acquireWriter, hlookup, hholder] at h ⊢
      rcases lookup_modifyState_cases h with ⟨rfl, s, hs, rfl⟩ | ⟨hr, hs⟩
      · obtain rfl : state = s := Option.some.inj (hlookup.symm.trans hs)
        have hreaders : c.getReaders r = state.readers := by
          simp [getReaders, hlookup]
        rw [hreaders]
        exact ⟨state, hs, .granted now node hholder⟩
      · exact ⟨s', hs, .elsewhere hr⟩

theorem change_releaseWriter {r : RegionId} {node : UInt16}
    (h : (c.releaseWriter r node).1.homeStates.lookup regionId = some s') :
    ∃ s, c.homeStates.lookup regionId = some s ∧
      Change c regionId (.releaseWriter r node) s s' [] := by
  unfold releaseWriter at h
  cases hlookup : c.homeStates.lookup r with
  | none =>
    simp only [hlookup] at h
    exact ⟨s', h, .nothing⟩
  | some state =>
    cases hwriter : state.writer with
    | none =>
      simp only [hlookup, hwriter] at h
      exact ⟨s', h, .nothing⟩
    | some info =>
      simp only [hlookup, hwriter] at h
      split_ifs at h with hnode
      · have hreleased : (c.modifyState r fun s =>
            { s with writer := none }.bumpEpoch).homeStates.lookup regionId = some s' := by
          split at h <;> exact h
        rcases lookup_modifyState_cases hreleased with ⟨rfl, s, hs, rfl⟩ | ⟨hr, hs⟩
        · obtain rfl : state = s := Option.some.inj (hlookup.symm.trans hs)
          rw [← hnode]
          exact ⟨state, hs, .released info hwriter⟩
        · exact ⟨s', hs, .nothing⟩
      · exact ⟨s', h, .nothing⟩

/-- The state of a region after a call: new with a registration, otherwise one
change of the state before. -/
theorem step_change (h : (c.step call).1.homeStates.lookup regionId = some s') :
    (∃ mrHandle baseOffset len, call = .registerRegion regionId mrHandle baseOffset len ∧
      s' = .new mrHandle baseOffset len 0) ∨
    ∃ s, c.homeStates.lookup regionId = some s ∧
      Change c regionId call s s' (c.step call).2 := by
  cases call with
  | registerRegion r mrHandle baseOffset len =>
    by_cases hr : regionId = r
    · subst hr
      simp only [step, registerRegion, AList.lookup_insert, Option.some.injEq] at h
      exact Or.inl ⟨mrHandle, baseOffset, len, rfl, h.symm⟩
    · simp only [step, registerRegion, AList.lookup_insert_ne hr] at h
      exact Or.inr ⟨s', h, .elsewhere (Ne.symm hr)⟩
  | addReader r node =>
    rcases lookup_modifyState_cases h with ⟨rfl, s, hs, rfl⟩ | ⟨-, hs⟩
    · exact Or.inr ⟨s, hs, .joined node⟩
    · exact Or.inr ⟨s', hs, .nothing⟩
  | removeReader r node =>
    rcases lookup_modifyState_cases h with ⟨rfl, s, hs, rfl⟩ | ⟨hr, hs⟩
    · exact Or.inr ⟨s, hs, .left node⟩
    · exact Or.inr ⟨s', hs, .elsewhere hr⟩
  | handleInvalidateAck r node =>
    rcases lookup_modifyState_cases h with ⟨rfl, s, hs, rfl⟩ | ⟨hr, hs⟩
    · exact Or.inr ⟨s, hs, .left node⟩
    · exact Or.inr ⟨s', hs, .elsewhere hr⟩
  | acquireWriter now r node => exact Or.inr (change_acquireWriter h)
  | releaseWriter r node => exact Or.inr (change_releaseWriter h)
  | checkLeaseExpiry now =>
    simp only [step, checkLeaseExpiry, Maps.lookup_mapValues, Option.map_eq_some_iff] at h ⊢
    obtain ⟨s, hs, rfl⟩ := h
    refine Or.inr ⟨s, hs, ?_⟩
    cases hexpired : s.expiredWriter now with
    | none =>
      rw [Option.isSome_none, if_neg Bool.false_ne_true]
      exact .nothing
    | some node =>
      rw [Option.isSome_some, if_pos rfl]
      obtain ⟨info, hwriter, hnow⟩ := RegionHomeState.expiredWriter_eq_some hexpired
      exact .expired now info hwriter hnow

end CoherenceManager

/-- The reader is not added while another node holds the writer lock. -/
def AddedUnlocked (c : CoherenceManager) (_ : List CoherenceEvent) : CoherenceCall → Prop
  | .addReader regionId node => ∀ info, c.getWriter regionId = some info →
      info.writerNodeId = node
  | _ => True

/-- Beside a writer there are only readers that its grant already found. -/
def ReadersPredateGrant (c : CoherenceManager) (log : List CoherenceEvent) : Prop :=
  ∀ regionId s info, c.homeStates.lookup regionId = some s → s.writer = some info →
    ∀ node ∈ s.readers, node ≠ info.writerNodeId →
      ReaderSinceGrant log regionId info.writerNodeId node

theorem ReadersPredateGrant.step {c : CoherenceManager} {log : List CoherenceEvent}
    {call : CoherenceCall} (h : ReadersPredateGrant c log) (hcall : AddedUnlocked c log call) :
    ReadersPredateGrant (c.step call).1 (log ++ (c.step call).2) := by
  intro regionId s' info hs' hinfo node hnode hne
  rcases CoherenceManager.step_change hs' with ⟨mrHandle, baseOffset, len, -, rfl⟩ |
    ⟨s, hs, hchange⟩
  · cases hinfo
  generalize (c.step call).2 = events at hchange
  cases hchange with
  | none hevents =>
    apply (h regionId s' info hs hinfo node hnode hne).append
    intro ev hev hsup
    exact hevents ev hev (CoherenceEvent.regionId_of_supersedes hsup)
  | joined new =>
    have hwriter : c.getWriter regionId = some info := by
      rw [CoherenceManager.getWriter, hs]
      exact hinfo
    rcases Finset.mem_insert.mp hnode with rfl | hold
    · exact absurd (hcall info hwriter).symm hne
    · exact (h regionId s info hs hinfo node hold hne).append fun ev hev => by cases hev
  | left gone =>
    obtain ⟨hstays, hold⟩ := Finset.mem_erase.mp hnode
    apply (h regionId s info hs hinfo node hold hne).append
    intro ev hev hsup
    obtain rfl := List.mem_singleton.mp hev
    exact hstays hsup.2.symm
  | granted now writer hholder =>
    cases hinfo
    exact ⟨log, s.readers, [], rfl, hnode, fun ev hev => by cases hev⟩
  | released info' hwriter => cases hinfo
  | expired now info' hwriter hnow => cases hinfo

/-- In every run in which no reader is added while another node holds the lock,
the readers beside a writer were readers at its most recent grant and did not
leave since. -/
theorem readers_predate_grant (writerLeaseMs : ℕ) {calls : List CoherenceCall}
    (hcalls : Runs.Meets CoherenceManager.step AddedUnlocked (.new writerLeaseMs) [] calls) :
    ReadersPredateGrant (Runs.run CoherenceManager.step (.new writerLeaseMs) calls).1
      (Runs.run CoherenceManager.step (.new writerLeaseMs) calls).2 := by
  have hinit : ReadersPredateGrant (.new writerLeaseMs) [] := by
    intro regionId s info hs
    cases hs
  exact Runs.run_invariant
    (fun c log call (h : ReadersPredateGrant c log) hcall => h.step hcall) hinit hcalls

/-- Two readers join region 1, node 1 gets the lock, and one reader leaves. -/
def grantOverReaders : List CoherenceCall :=
  [.registerRegion ⟨1⟩ 1 0 4096, .addReader ⟨1⟩ 2, .addReader ⟨1⟩ 3, .acquireWriter 0 ⟨1⟩ 1,
    .handleInvalidateAck ⟨1⟩ 2]

theorem readers_predate_grant_over_readers :
    ReadersPredateGrant (Runs.run CoherenceManager.step (.new 5000) grantOverReaders).1
      (Runs.run CoherenceManager.step (.new 5000) grantOverReaders).2 := by
  apply readers_predate_grant
  refine ⟨trivial, ?_, ?_, trivial, trivial, trivial⟩
  all_goals
    intro info hinfo
    cases hinfo

/-- No node but the writer is a reader of a region with a writer. -/
def Swmr (c : CoherenceManager) : Prop :=
  ∀ regionId info, c.getWriter regionId = some info →
    ∀ node ∈ c.getReaders regionId, node = info.writerNodeId

/-- Node 3 is still a reader of region 1 while node 1 is its writer. -/
theorem granted_over_reader :
    ¬ Swmr (Runs.run CoherenceManager.step (.new 5000) grantOverReaders).1 := by
  intro h
  have hwriter : (Runs.run CoherenceManager.step (.new 5000) grantOverReaders).1.getWriter ⟨1⟩ =
      some ⟨1, fromMillis 5000⟩ := rfl
  have hreader : (3 : UInt16) ∈
      (Runs.run CoherenceManager.step (.new 5000) grantOverReaders).1.getReaders ⟨1⟩ := by
    decide
  exact absurd (h ⟨1⟩ _ hwriter 3 hreader) (by decide)

end UniBus.Managed
