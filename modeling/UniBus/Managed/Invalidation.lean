import UniBus.Foundations.Runs
import UniBus.Managed.FetchAgent

/-!
# Invalidations and late fetches

A reader node gets the INVALIDATE notifications of a region and the completions
of its fetches in any order. A completion sets the region's state, its epoch and
the epoch of the cached copy; a notification compares before it does.
-/
namespace UniBus.Managed

inductive ReaderCall
  | receiveInvalidate (regionId : RegionId) (newEpoch : UInt64)
  | completeFetch (now : Instant) (regionId : RegionId) (len epoch : UInt64)
  | readVa (now : Instant) (regionId : RegionId)
  | markFetchInFlight (regionId : RegionId)
  deriving DecidableEq

namespace CachePool

def epochOf (p : CachePool) (regionId : RegionId) : Option UInt64 :=
  (p.entries.lookup regionId).map CacheEntry.epoch

end CachePool

namespace FetchAgent

/-- The log records the notifications that have been processed. -/
def step (f : FetchAgent) : ReaderCall → FetchAgent × List (RegionId × UInt64)
  | .receiveInvalidate regionId newEpoch =>
    ((f.receiveInvalidate regionId newEpoch).1, [(regionId, newEpoch)])
  | .completeFetch now regionId len epoch => ((f.completeFetch now regionId len epoch).1, [])
  | .readVa now regionId => ((f.readVa now regionId).1, [])
  | .markFetchInFlight regionId => (f.markFetchInFlight regionId, [])

def tableEpoch (f : FetchAgent) (regionId : RegionId) : Option UInt64 :=
  (f.regionTable.lookup regionId).map RegionInfo.epoch

end FetchAgent

/-! ## Steps that only take a copy away -/

/-- The region keeps its epoch, and its state unless it becomes Invalid; a copy
that is left is the one there was. -/
structure Fades (regionId : RegionId) (table : RegionTable) (p : CachePool)
    (table' : RegionTable) (p' : CachePool) : Prop where
  info : ∀ info, table.lookup regionId = some info →
    table'.lookup regionId = some info ∨
      table'.lookup regionId = some { info with state := .invalid }
  copy : ∀ epoch, p'.epochOf regionId = some epoch → p.epochOf regionId = some epoch

namespace Fades

variable {regionId : RegionId} {table table' table'' : RegionTable} {p p' p'' : CachePool}

theorem refl : Fades regionId table p table p := ⟨fun _ h => Or.inl h, fun _ h => h⟩

theorem trans (h : Fades regionId table p table' p')
    (k : Fades regionId table' p' table'' p'') : Fades regionId table p table'' p'' := by
  refine ⟨?_, fun epoch hepoch => h.copy epoch (k.copy epoch hepoch)⟩
  intro info hinfo
  rcases h.info info hinfo with hsame | hgone
  · exact k.info info hsame
  · right
    rcases k.info _ hgone with hsame' | hgone'
    · exact hsame'
    · exact hgone'

theorem setState_invalid (other : RegionId) :
    Fades regionId table p (table.setState other .invalid) p := by
  refine ⟨?_, fun _ h => h⟩
  intro info hinfo
  by_cases hother : regionId = other
  · subst hother
    right
    rw [RegionTable.lookup_setState, hinfo]
    rfl
  · left
    rw [RegionTable.lookup_setState_ne table hother, hinfo]

theorem of_erase {other : RegionId} (hentries : p'.entries = p.entries.erase other) :
    Fades regionId table p table p' := by
  refine ⟨fun _ h => Or.inl h, ?_⟩
  intro epoch hepoch
  rw [CachePool.epochOf, hentries, Option.map_eq_some_iff] at hepoch
  obtain ⟨entry, hentry, rfl⟩ := hepoch
  rw [CachePool.epochOf, Maps.lookup_erase_of_some hentry]
  rfl

theorem evictLru (h : p.evictLru table = some (p', table')) :
    Fades regionId table p table' p' := by
  unfold CachePool.evictLru at h
  split at h
  · cases h
  · cases h
    split_ifs
    · exact (of_erase rfl).trans (setState_invalid _)
    · exact of_erase rfl

theorem makeRoom (regionId : RegionId) (len : UInt64) (fuel : ℕ) (p : CachePool)
    (table : RegionTable) :
    Fades regionId table p (CachePool.makeRoom len fuel p table).2.1
      (CachePool.makeRoom len fuel p table).1 :=
  CachePool.makeRoom_keeps (I := fun p' table' => Fades regionId table p table' p')
    (fun _ _ _ _ h hevict => h.trans (evictLru hevict)) len fuel refl

end Fades

namespace CachePool

theorem insert_fades (p : CachePool) (table : RegionTable) (now : Instant) (other : RegionId)
    (len epoch : UInt64) (regionId : RegionId) :
    ∃ p₁, Fades regionId table p (p.insert table now other len epoch).2.1 p₁ ∧
      ((∃ e, (p.insert table now other len epoch).2.2 = .error e) ∧
        (p.insert table now other len epoch).1 = p₁ ∨
      ∃ entry, (p.insert table now other len epoch).2.2 = .ok entry ∧ entry.epoch = epoch ∧
        (p.insert table now other len epoch).1.entries = p₁.entries.insert other entry) := by
  have hroom := Fades.makeRoom regionId len (p.entries.entries.length + 1) p table
  refine ⟨(makeRoom len (p.entries.entries.length + 1) p table).1, ?_⟩
  rcases p.insert_inv table now other len epoch with
    ⟨-, message, hinsert⟩ | ⟨-, allocator, poolOffset, -, hinsert⟩
  · rw [hinsert]
    exact ⟨hroom, Or.inl ⟨⟨message, rfl⟩, rfl⟩⟩
  · rw [hinsert]
    exact ⟨hroom, Or.inr ⟨_, rfl, rfl, rfl⟩⟩

end CachePool

namespace FetchAgent

variable {f f' : FetchAgent} {regionId : RegionId} {info : RegionInfo}

/-- The agent's copy of the region is at most taken away. -/
def FadesTo (regionId : RegionId) (f f' : FetchAgent) : Prop :=
  Fades regionId f.regionTable f.cachePool f'.regionTable f'.cachePool

theorem fadesTo_invalidateLocal (other : RegionId) :
    FadesTo regionId f (f.invalidateLocal other) := by
  have hpool : Fades regionId f.regionTable f.cachePool f.regionTable
      (f.cachePool.remove other).1 := by
    unfold CachePool.remove
    split
    · exact .refl
    · exact .of_erase rfl
  exact hpool.trans (.setState_invalid other)

theorem epochOf_lookup (p : CachePool) (now : Instant) (other : RegionId) :
    (p.lookup now other).1.epochOf regionId = p.epochOf regionId := by
  by_cases hother : regionId = other
  · subst hother
    simp [CachePool.lookup, CachePool.epochOf, Maps.lookup_modify, Function.comp_def]
  · simp [CachePool.lookup, CachePool.epochOf, Maps.lookup_modify_ne hother]

theorem fadesTo_readVa (now : Instant) (other : RegionId) :
    FadesTo regionId f (f.readVa now other).1 := by
  have hpool : FadesTo regionId f { f with cachePool := (f.cachePool.lookup now other).1 } := by
    refine ⟨fun _ h => Or.inl h, ?_⟩
    intro epoch hepoch
    rwa [← epochOf_lookup f.cachePool now other]
  rcases f.readVa_outcome now other with
    ⟨-, heq⟩ | ⟨region, -, -, heq⟩ | ⟨region, -, -, heq⟩ | ⟨region, epoch, entry, -, -, -, heq⟩
  · rw [heq]
    exact .refl
  · rw [heq]
    exact .refl
  · rw [heq]
    exact .refl
  · rw [heq]
    split_ifs
    · exact hpool.trans (fadesTo_invalidateLocal other)
    · exact hpool

/-- How one call can change what the agent knows of a region it is not home of. -/
inductive ReaderEffect (regionId : RegionId) (info : RegionInfo) (f f' : FetchAgent) :
    ReaderCall → Prop
  | faded {call : ReaderCall} (hfades : FadesTo regionId f f')
      (hold : ∀ newEpoch, call = .receiveInvalidate regionId newEpoch →
        (∃ epoch, info.state = .shared epoch ∧ newEpoch < epoch) ∨ newEpoch ≤ info.epoch) :
      ReaderEffect regionId info f f' call
  | raised (newEpoch : UInt64)
      (hinfo : f'.regionTable.lookup regionId =
        some { info with epoch := newEpoch, state := .invalid })
      (hnew : (∃ epoch, info.state = .shared epoch ∧ epoch ≤ newEpoch) ∨
        info.epoch < newEpoch) :
      ReaderEffect regionId info f f' (.receiveInvalidate regionId newEpoch)
  | fetched (now : Instant) (len epoch : UInt64)
      (hinfo : f'.regionTable.lookup regionId =
        some { info with epoch, state := .shared epoch })
      (hcopy : f'.cachePool.epochOf regionId = some epoch) :
      ReaderEffect regionId info f f' (.completeFetch now regionId len epoch)

theorem receiveInvalidate_effect (hinfo : f.regionTable.lookup regionId = some info)
    (hstate : info.state ≠ .home) (newEpoch : UInt64) :
    ReaderEffect regionId info f (f.receiveInvalidate regionId newEpoch).1
      (.receiveInvalidate regionId newEpoch) := by
  unfold receiveInvalidate
  rw [hinfo]
  dsimp only
  cases hcase : info.state with
  | home => exact absurd hcase hstate
  | invalid =>
    dsimp only
    split_ifs with hnew
    · refine .raised newEpoch ?_ (Or.inr hnew)
      rw [RegionTable.lookup_setEpoch, hinfo, ← hcase]
      rfl
    · apply ReaderEffect.faded .refl
      intro other hcall
      cases hcall
      exact Or.inr (UInt64.not_lt.mp hnew)
  | shared epoch =>
    dsimp only
    split_ifs with hnew
    · refine .raised newEpoch ?_ (Or.inl ⟨epoch, hcase, hnew⟩)
      rw [RegionTable.lookup_setEpoch, invalidateLocal, RegionTable.lookup_setState, hinfo]
      rfl
    · apply ReaderEffect.faded .refl
      intro other hcall
      cases hcall
      exact Or.inl ⟨epoch, hcase, UInt64.not_le.mp hnew⟩

theorem fadesTo_receiveInvalidate {other : RegionId} (hother : regionId ≠ other)
    (newEpoch : UInt64) : FadesTo regionId f (f.receiveInvalidate other newEpoch).1 := by
  have hepoch : ∀ table p, Fades regionId table p (table.setEpoch other newEpoch) p := by
    intro table p
    refine ⟨?_, fun _ h => h⟩
    intro info hinfo
    left
    rw [RegionTable.lookup_setEpoch_ne table hother, hinfo]
  unfold receiveInvalidate
  split
  · exact .refl
  · split
    · exact .refl
    · split_ifs
      · exact hepoch _ _
      · exact .refl
    · split_ifs
      · exact (fadesTo_invalidateLocal other).trans (hepoch _ _)
      · exact .refl

theorem completeFetch_effect (hinfo : f.regionTable.lookup regionId = some info) (now : Instant)
    (other : RegionId) (len epoch : UInt64) :
    ReaderEffect regionId info f (f.completeFetch now other len epoch).1
      (.completeFetch now other len epoch) := by
  obtain ⟨p₁, hfades, hinsert⟩ :=
    f.cachePool.insert_fades f.regionTable now other len epoch regionId
  unfold completeFetch
  generalize f.cachePool.insert f.regionTable now other len epoch = inserted at hfades hinsert
  obtain ⟨pool, table, result⟩ := inserted
  rcases hinsert with ⟨⟨e, rfl⟩, rfl⟩ | ⟨entry, rfl, hepoch, hentries⟩
  · have hagent : FadesTo regionId f { f with cachePool := pool, regionTable := table } := hfades
    apply ReaderEffect.faded hagent
    intro newEpoch hcall
    cases hcall
  · dsimp only at hfades hentries ⊢
    by_cases hother : regionId = other
    · subst hother
      apply ReaderEffect.fetched
      · rw [RegionTable.lookup_setEpoch, RegionTable.lookup_setState]
        rcases hfades.info info hinfo with h | h
        · rw [h]
          rfl
        · rw [h]
          rfl
      · rw [CachePool.epochOf, hentries, AList.lookup_insert, Option.map_some, hepoch]
    · apply ReaderEffect.faded
      · refine ⟨?_, ?_⟩
        · intro info hinfo
          rw [RegionTable.lookup_setEpoch_ne _ hother, RegionTable.lookup_setState_ne _ hother]
          exact hfades.info info hinfo
        · intro epoch hcopy
          rw [CachePool.epochOf, hentries, AList.lookup_insert_ne hother] at hcopy
          exact hfades.copy epoch hcopy
      · intro newEpoch hcall
        cases hcall

theorem step_effect (hinfo : f.regionTable.lookup regionId = some info)
    (hstate : info.state ≠ .home) (call : ReaderCall) :
    ReaderEffect regionId info f (f.step call).1 call := by
  cases call with
  | receiveInvalidate other newEpoch =>
    by_cases hother : regionId = other
    · subst hother
      exact receiveInvalidate_effect hinfo hstate newEpoch
    · apply ReaderEffect.faded (fadesTo_receiveInvalidate hother newEpoch)
      intro e hcall
      cases hcall
      exact absurd rfl hother
  | completeFetch now other len epoch => exact completeFetch_effect hinfo now other len epoch
  | readVa now other =>
    apply ReaderEffect.faded (fadesTo_readVa now other)
    intro newEpoch hcall
    cases hcall
  | markFetchInFlight other =>
    have hsame : FadesTo regionId f (f.markFetchInFlight other) := by
      unfold markFetchInFlight
      split_ifs <;> exact .refl
    apply ReaderEffect.faded hsame
    intro newEpoch hcall
    cases hcall

/-! ## Whole runs -/

/-- A fetch of the region completes with an epoch that is not behind the table. -/
def Timely (regionId : RegionId) (f : FetchAgent) (call : ReaderCall) : Prop :=
  ∀ now len epoch, call = .completeFetch now regionId len epoch →
    ∀ current ∈ f.tableEpoch regionId, current ≤ epoch

/-- The table is not behind any notification, and a Shared region has the table's
epoch, as has its copy. -/
structure InSync (regionId : RegionId) (log : List (RegionId × UInt64)) (f : FetchAgent)
    (info : RegionInfo) : Prop where
  known : f.regionTable.lookup regionId = some info
  remote : info.state ≠ .home
  notified : ∀ newEpoch, (regionId, newEpoch) ∈ log → newEpoch ≤ info.epoch
  shared : ∀ epoch, info.state = .shared epoch → epoch = info.epoch
  copy : ∀ epoch, info.state = .shared epoch →
    ∀ cached ∈ f.cachePool.epochOf regionId, cached = epoch

variable {log : List (RegionId × UInt64)} {call : ReaderCall}

theorem notified_step {bound : UInt64}
    (hold : ∀ newEpoch, (regionId, newEpoch) ∈ log → newEpoch ≤ bound)
    (hnew : ∀ newEpoch, call = .receiveInvalidate regionId newEpoch → newEpoch ≤ bound) :
    ∀ newEpoch, (regionId, newEpoch) ∈ log ++ (f.step call).2 → newEpoch ≤ bound := by
  intro newEpoch hmem
  rcases List.mem_append.mp hmem with h | h
  · exact hold newEpoch h
  · cases call with
    | receiveInvalidate other e =>
      obtain ⟨rfl, rfl⟩ := Prod.mk.inj (List.mem_singleton.mp h)
      exact hnew newEpoch rfl
    | _ => cases h

theorem InSync.tableEpoch (h : InSync regionId log f info) :
    info.epoch ∈ f.tableEpoch regionId := by
  rw [FetchAgent.tableEpoch, h.known]
  rfl

theorem InSync.step (h : InSync regionId log f info) (hcall : Timely regionId f call) :
    ∃ info', InSync regionId (log ++ (f.step call).2) (f.step call).1 info' ∧
      info.epoch ≤ info'.epoch := by
  cases step_effect h.known h.remote call with
  | faded hfades hold =>
    have hnew : ∀ newEpoch, call = .receiveInvalidate regionId newEpoch →
        newEpoch ≤ info.epoch := by
      intro newEpoch hcall
      rcases hold newEpoch hcall with ⟨epoch, hshared, hlt⟩ | hle
      · rw [← h.shared epoch hshared]
        exact UInt64.le_of_lt hlt
      · exact hle
    have hnotified := notified_step (f := f) h.notified hnew
    rcases hfades.info info h.known with hsame | hgone
    · refine ⟨info, ⟨hsame, h.remote, hnotified, h.shared, ?_⟩, UInt64.le_refl _⟩
      intro epoch hshared cached hcached
      exact h.copy epoch hshared cached (hfades.copy cached hcached)
    · refine ⟨_, ⟨hgone, by simp, hnotified, ?_, ?_⟩, UInt64.le_refl _⟩
      · intro epoch hshared
        cases hshared
      · intro epoch hshared
        cases hshared
  | raised newEpoch hinfo hnew =>
    have hle : info.epoch ≤ newEpoch := by
      rcases hnew with ⟨epoch, hshared, hle⟩ | hlt
      · rwa [← h.shared epoch hshared]
      · exact UInt64.le_of_lt hlt
    refine ⟨_, ⟨hinfo, by simp, ?_, ?_, ?_⟩, hle⟩
    · apply notified_step
      · intro e he
        exact UInt64.le_trans (h.notified e he) hle
      · intro e hcall
        cases hcall
        exact UInt64.le_refl _
    · intro epoch hshared
      cases hshared
    · intro epoch hshared
      cases hshared
  | fetched now len epoch hinfo hcopy =>
    have hle : info.epoch ≤ epoch := by
      exact hcall now len epoch rfl info.epoch h.tableEpoch
    refine ⟨_, ⟨hinfo, by simp, ?_, ?_, ?_⟩, hle⟩
    · apply notified_step
      · intro e he
        exact UInt64.le_trans (h.notified e he) hle
      · intro e hcall
        cases hcall
    · intro e hshared
      cases hshared
      rfl
    · intro e hshared cached hcached
      cases hshared
      exact Option.some.inj (hcached.symm.trans hcopy)

theorem inSync_run (h : InSync regionId log f info) {calls : List ReaderCall}
    (hcalls : Runs.Meets step (fun f _ => Timely regionId f) f log calls) :
    ∃ info', InSync regionId (log ++ (Runs.run step f calls).2) (Runs.run step f calls).1 info' ∧
      info.epoch ≤ info'.epoch := by
  refine Runs.run_invariant
    (I := fun f log => ∃ info', InSync regionId log f info' ∧ info.epoch ≤ info'.epoch)
    ?_ ⟨info, h, UInt64.le_refl _⟩ hcalls
  rintro f log call ⟨info₁, hsync, hle⟩ hcall
  obtain ⟨info₂, hsync', hle'⟩ := hsync.step hcall
  exact ⟨info₂, hsync', UInt64.le_trans hle hle'⟩

theorem readVa_hit {now : Instant} {poolOffset : UInt64} {region : RegionInfo}
    (h : (f.readVa now regionId).2 = .cacheHit poolOffset region) :
    f.regionTable.lookup regionId = some region ∧ (∃ epoch, region.state = .shared epoch) ∧
      ∃ entry, f.cachePool.entries.lookup regionId = some entry ∧
        entry.poolOffset = poolOffset := by
  rcases f.readVa_outcome now regionId with
    ⟨-, heq⟩ | ⟨found, -, -, heq⟩ | ⟨found, -, -, heq⟩ |
      ⟨found, epoch, entry, hfound, hstate, hentry, heq⟩
  · rw [heq] at h
    cases h
  · rw [heq] at h
    cases h
  · rw [heq] at h
    cases h
  · rw [heq] at h
    split_ifs at h
    cases h
    exact ⟨hfound, ⟨epoch, hstate⟩, entry, hentry, rfl⟩

/-- After an INVALIDATE every hit is served by a copy with at least its epoch, and
the table's epoch never goes back, provided that no fetch completes with an epoch
behind the table. -/
theorem invalidation_beats_late_fetch (f : FetchAgent) (regionId : RegionId) (info : RegionInfo)
    (hinfo : f.regionTable.lookup regionId = some info) (hinvalid : info.state = .invalid)
    (calls : List ReaderCall)
    (h : Runs.Meets step (fun f _ => Timely regionId f) f [] calls) :
    (∀ now poolOffset region,
      ((Runs.run step f calls).1.readVa now regionId).2 = .cacheHit poolOffset region →
      ∃ entry, (Runs.run step f calls).1.cachePool.entries.lookup regionId = some entry ∧
        entry.poolOffset = poolOffset ∧
        ∀ newEpoch, (regionId, newEpoch) ∈ (Runs.run step f calls).2 → newEpoch ≤ entry.epoch) ∧
    ∀ earlier later, calls = earlier ++ later →
      ∃ epoch ∈ (Runs.run step f earlier).1.tableEpoch regionId,
        ∃ epoch' ∈ (Runs.run step f calls).1.tableEpoch regionId, epoch ≤ epoch' := by
  have hstart : InSync regionId [] f info := by
    refine ⟨hinfo, by simp [hinvalid], by simp, ?_, ?_⟩
    · simp [hinvalid]
    · simp [hinvalid]
  constructor
  · intro now poolOffset region hhit
    obtain ⟨info', hsync, -⟩ := inSync_run hstart h
    obtain ⟨hregion, ⟨epoch, hshared⟩, entry, hentry, hoffset⟩ := readVa_hit hhit
    obtain rfl := Option.some.inj (hsync.known.symm.trans hregion)
    have hcached : entry.epoch ∈ (Runs.run step f calls).1.cachePool.epochOf regionId := by
      rw [CachePool.epochOf, hentry]
      rfl
    refine ⟨entry, hentry, hoffset, ?_⟩
    intro newEpoch hnew
    rw [hsync.copy epoch hshared entry.epoch hcached, hsync.shared epoch hshared]
    exact hsync.notified newEpoch hnew
  · rintro earlier later rfl
    obtain ⟨hearlier, hlater⟩ := h.split
    obtain ⟨info₁, hsync₁, -⟩ := inSync_run hstart hearlier
    obtain ⟨info₂, hsync₂, hle⟩ := inSync_run hsync₁ hlater
    refine ⟨info₁.epoch, hsync₁.tableEpoch, info₂.epoch, ?_, hle⟩
    rw [Runs.run_append]
    exact hsync₂.tableEpoch

/-- A reader that knows region `1` and has not cached it. -/
def coldReader : FetchAgent :=
  .new (RegionTable.new.insert ⟨⟨1⟩, 1, 0, 7, 0, 4096, 0, .invalid⟩)
    (.withRegionTable (.new 0 8192) 8192)

theorem invalidation_beats_late_fetch_refetched :
    let s := (Runs.run step coldReader
      [.receiveInvalidate ⟨1⟩ 5, .completeFetch 0 ⟨1⟩ 4096 5]).1
    ∃ entry, s.cachePool.entries.lookup ⟨1⟩ = some entry ∧ entry.poolOffset = 0 ∧
      5 ≤ entry.epoch := by
  have hrun := invalidation_beats_late_fetch coldReader ⟨1⟩ ⟨⟨1⟩, 1, 0, 7, 0, 4096, 0, .invalid⟩
    rfl rfl [.receiveInvalidate ⟨1⟩ 5, .completeFetch 0 ⟨1⟩ 4096 5] (by
      refine ⟨?_, ?_, trivial⟩
      · intro now len epoch hcall
        cases hcall
      · intro now len epoch hcall current hcurrent
        cases hcall
        obtain rfl := Option.some.inj hcurrent
        decide)
  obtain ⟨entry, hentry, hoffset, hepoch⟩ := hrun.1 1 0
    ⟨⟨1⟩, 1, 0, 7, 0, 4096, 5, .shared 5⟩ rfl
  exact ⟨entry, hentry, hoffset, hepoch 5 (by simp [step])⟩

/-- A fetch that began before the notification completes after it: the table's
epoch goes back to `0`, and the stale copy is served. -/
theorem late_fetch_beats_invalidation :
    let notified := (Runs.run step coldReader [.readVa 0 ⟨1⟩, .receiveInvalidate ⟨1⟩ 5]).1
    let s := (notified.step (.completeFetch 0 ⟨1⟩ 4096 0)).1
    (coldReader.readVa 0 ⟨1⟩).2 = .cacheMiss ⟨⟨1⟩, 1, 0, 7, 0, 4096, 0, .invalid⟩ ∧
      notified.tableEpoch ⟨1⟩ = some 5 ∧ s.tableEpoch ⟨1⟩ = some 0 ∧
      (s.readVa 1 ⟨1⟩).2 = .cacheHit 0 ⟨⟨1⟩, 1, 0, 7, 0, 4096, 0, .shared 0⟩ ∧
      s.cachePool.epochOf ⟨1⟩ = some 0 :=
  ⟨rfl, rfl, rfl, rfl, rfl⟩

end FetchAgent
end UniBus.Managed
