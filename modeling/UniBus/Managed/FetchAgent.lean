import UniBus.Managed.CachePool

/-!
# Read-through caching of remote regions

The fetch agent decides whether a read is served by the home device, by the
cache or by a fetch from the home node, and records what a fetch or an
invalidation changes.
-/
namespace UniBus.Managed

structure FetchAgent where
  regionTable : RegionTable
  cachePool : CachePool
  inFlight : List RegionId

inductive ReadVaResult
  | home (region : RegionInfo)
  | cacheHit (poolOffset : UInt64) (region : RegionInfo)
  | cacheMiss (region : RegionInfo)
  | unknownRegion
  deriving DecidableEq, Repr

namespace FetchAgent

def new (regionTable : RegionTable) (cachePool : CachePool) : FetchAgent :=
  ⟨regionTable, cachePool, []⟩

variable (f : FetchAgent)

def invalidateLocal (regionId : RegionId) : FetchAgent :=
  { f with
    cachePool := (f.cachePool.remove regionId).1
    regionTable := f.regionTable.setState regionId .invalid }

/-- A Shared region is read from the cache unless the copy is older than the
region's epoch, in which case it is dropped. -/
def readVa (now : Instant) (regionId : RegionId) : FetchAgent × ReadVaResult :=
  match f.regionTable.lookup regionId with
  | none => (f, .unknownRegion)
  | some region =>
    match region.state with
    | .home => (f, .home region)
    | .invalid => (f, .cacheMiss region)
    | .shared regionEpoch =>
      match f.cachePool.lookup now regionId with
      | (_, none) => (f, .cacheMiss region)
      | (pool, some entry) =>
        let f := { f with cachePool := pool }
        if entry.epoch < regionEpoch then
          (f.invalidateLocal regionId, .cacheMiss { region with state := .invalid })
        else (f, .cacheHit entry.poolOffset region)

/-- Caches a fetched region and turns it Shared; returns its place in the pool. -/
def completeFetch (now : Instant) (regionId : RegionId) (len epoch : UInt64) :
    FetchAgent × Except String UInt64 :=
  match f.cachePool.insert f.regionTable now regionId len epoch with
  | (pool, table, .error e) => ({ f with cachePool := pool, regionTable := table }, .error e)
  | (pool, table, .ok entry) =>
    ({ cachePool := pool
       regionTable := (table.setState regionId (.shared epoch)).setEpoch regionId epoch
       inFlight := f.inFlight.filter fun id => id ≠ regionId },
      .ok entry.poolOffset)

def isFetchInFlight (regionId : RegionId) : Bool := f.inFlight.contains regionId

def markFetchInFlight (regionId : RegionId) : FetchAgent :=
  if f.inFlight.contains regionId then f else { f with inFlight := f.inFlight ++ [regionId] }

/-- An INVALIDATE of the home node; true when a Shared copy was dropped. -/
def receiveInvalidate (regionId : RegionId) (newEpoch : UInt64) : FetchAgent × Bool :=
  match f.regionTable.lookup regionId with
  | none => (f, false)
  | some region =>
    match region.state with
    | .home => (f, false)
    | .invalid =>
      if newEpoch > region.epoch then
        ({ f with regionTable := f.regionTable.setEpoch regionId newEpoch }, false)
      else (f, false)
    | .shared currentEpoch =>
      if newEpoch ≥ currentEpoch then
        let f := f.invalidateLocal regionId
        ({ f with regionTable := f.regionTable.setEpoch regionId newEpoch }, true)
      else (f, false)

/-! ## What happens to the cached copies -/

theorem shrinks_invalidateLocal (regionId : RegionId) :
    f.cachePool.Shrinks (f.invalidateLocal regionId).cachePool :=
  CachePool.shrinks_remove regionId

variable (now : Instant)

theorem readVa_outcome (regionId : RegionId) :
    let touched : FetchAgent := { f with cachePool := (f.cachePool.lookup now regionId).1 }
    (f.regionTable.lookup regionId = none ∧ f.readVa now regionId = (f, .unknownRegion)) ∨
      (∃ region, f.regionTable.lookup regionId = some region ∧ region.state = .home ∧
        f.readVa now regionId = (f, .home region)) ∨
      (∃ region, f.regionTable.lookup regionId = some region ∧ region.state ≠ .home ∧
        f.readVa now regionId = (f, .cacheMiss region)) ∨
      ∃ region epoch entry, f.regionTable.lookup regionId = some region ∧
        region.state = .shared epoch ∧ f.cachePool.entries.lookup regionId = some entry ∧
        f.readVa now regionId =
          if entry.epoch < epoch then
            (touched.invalidateLocal regionId, .cacheMiss { region with state := .invalid })
          else (touched, .cacheHit entry.poolOffset region) := by
  intro touched
  cases hregion : f.regionTable.lookup regionId with
  | none => exact Or.inl ⟨rfl, by simp only [readVa, hregion]⟩
  | some region =>
    right
    cases hstate : region.state with
    | home => exact Or.inl ⟨region, rfl, hstate, by simp only [readVa, hregion, hstate]⟩
    | invalid =>
      have hne : region.state ≠ .home := by simp [hstate]
      exact Or.inr (Or.inl ⟨region, rfl, hne, by simp only [readVa, hregion, hstate]⟩)
    | shared epoch =>
      have hne : region.state ≠ .home := by simp [hstate]
      cases hentry : f.cachePool.entries.lookup regionId with
      | none =>
        refine Or.inr (Or.inl ⟨region, rfl, hne, ?_⟩)
        simp only [readVa, hregion, hstate, CachePool.lookup, hentry, Option.map_none]
      | some entry =>
        refine Or.inr (Or.inr ⟨region, epoch, entry, rfl, hstate, rfl, ?_⟩)
        simp only [readVa, hregion, hstate, CachePool.lookup, hentry, Option.map_some]
        rfl

theorem shrinks_readVa (regionId : RegionId) :
    f.cachePool.Shrinks (f.readVa now regionId).1.cachePool := by
  let touched : FetchAgent := { f with cachePool := (f.cachePool.lookup now regionId).1 }
  have hpool : f.cachePool.Shrinks touched.cachePool := CachePool.shrinks_lookup now regionId
  rcases f.readVa_outcome now regionId with
    ⟨-, heq⟩ | ⟨region, -, -, heq⟩ | ⟨region, -, -, heq⟩ | ⟨region, epoch, entry, -, -, -, heq⟩
  · rw [heq]
    exact .refl
  · rw [heq]
    exact .refl
  · rw [heq]
    exact .refl
  · rw [heq]
    split_ifs
    · exact hpool.trans (touched.shrinks_invalidateLocal regionId)
    · exact hpool

theorem shrinks_receiveInvalidate (regionId : RegionId) (newEpoch : UInt64) :
    f.cachePool.Shrinks (f.receiveInvalidate regionId newEpoch).1.cachePool := by
  unfold receiveInvalidate
  split
  · exact .refl
  · split
    · exact .refl
    · split_ifs <;> exact .refl
    · split_ifs
      · exact f.shrinks_invalidateLocal regionId
      · exact .refl

theorem completeFetch_cases (regionId : RegionId) (len epoch : UInt64) :
    ((∃ e, (f.completeFetch now regionId len epoch).2 = .error e) ∧
      f.cachePool.Shrinks (f.completeFetch now regionId len epoch).1.cachePool) ∨
    ∃ entry, (f.completeFetch now regionId len epoch).2 = .ok entry.poolOffset ∧
      CachePool.Inserted f.cachePool (f.completeFetch now regionId len epoch).1.cachePool
        regionId len entry := by
  have hinsert := CachePool.insert_cases (p := f.cachePool) f.regionTable now regionId len epoch
  unfold completeFetch
  generalize f.cachePool.insert f.regionTable now regionId len epoch = inserted at hinsert
  obtain ⟨pool, table, result⟩ := inserted
  rcases hinsert with ⟨⟨e, herror⟩, hshrinks⟩ | ⟨entry, hok, hinserted⟩
  · dsimp only at herror
    subst herror
    exact Or.inl ⟨⟨e, rfl⟩, hshrinks⟩
  · dsimp only at hok
    subst hok
    exact Or.inr ⟨entry, rfl, hinserted⟩

/-- A fetch that is completed evicts first. Then it stores the copy and turns the
region Shared, or finds no room. -/
theorem completeFetch_eq (regionId : RegionId) (len epoch : UInt64) :
    let room := CachePool.makeRoom len (f.cachePool.entries.entries.length + 1) f.cachePool
      f.regionTable
    (f.completeFetch now regionId len epoch).1 =
        { f with cachePool := room.1, regionTable := room.2.1 } ∨
      ∃ allocator poolOffset, (f.completeFetch now regionId len epoch).1 =
        { cachePool :=
            { room.1 with
              allocator
              usedBytes := room.1.usedBytes + len
              entries := room.1.entries.insert regionId ⟨regionId, poolOffset, len, epoch, now⟩ }
          regionTable := (room.2.1.setState regionId (.shared epoch)).setEpoch regionId epoch
          inFlight := f.inFlight.filter fun id => id ≠ regionId } := by
  unfold completeFetch
  rcases f.cachePool.insert_inv f.regionTable now regionId len epoch with
    ⟨-, message, hinsert⟩ | ⟨-, allocator, poolOffset, -, hinsert⟩
  · rw [hinsert]
    exact Or.inl rfl
  · rw [hinsert]
    exact Or.inr ⟨allocator, poolOffset, rfl⟩

/-! ## What happens to the region table -/

theorem sameRegions_invalidateLocal (regionId : RegionId) :
    f.regionTable.SameRegions (f.invalidateLocal regionId).regionTable :=
  RegionTable.sameRegions_setState (by simp)

theorem sameRegions_receiveInvalidate (regionId : RegionId) (newEpoch : UInt64) :
    f.regionTable.SameRegions (f.receiveInvalidate regionId newEpoch).1.regionTable := by
  unfold receiveInvalidate
  split
  · exact .refl
  · split
    · exact .refl
    · split_ifs
      · exact RegionTable.sameRegions_setEpoch
      · exact .refl
    · split_ifs
      · exact (f.sameRegions_invalidateLocal regionId).trans RegionTable.sameRegions_setEpoch
      · exact .refl

theorem sameRegions_completeFetch (regionId : RegionId) (len epoch : UInt64) :
    f.regionTable.SameRegions (f.completeFetch now regionId len epoch).1.regionTable := by
  have hinsert := f.cachePool.sameRegions_insert f.regionTable now regionId len epoch
  unfold completeFetch
  generalize f.cachePool.insert f.regionTable now regionId len epoch = inserted at hinsert
  obtain ⟨pool, table, result⟩ := inserted
  cases result with
  | error e => exact hinsert
  | ok entry =>
    have hshared : table.SameRegions (table.setState regionId (.shared epoch)) :=
      RegionTable.sameRegions_setState (by simp)
    exact (hinsert.trans hshared).trans RegionTable.sameRegions_setEpoch

/-- A read of a known region that is not at home here: it hits the cached copy or
starts a fetch. -/
theorem readVa_cases {regionId : RegionId} {region : RegionInfo}
    (hregion : f.regionTable.lookup regionId = some region) (hstate : region.state ≠ .home) :
    f.regionTable.SameRegions (f.readVa now regionId).1.regionTable ∧
      ((∃ epoch state, (f.readVa now regionId).2 = .cacheMiss { region with epoch, state }) ∨
        ∃ entry, (f.readVa now regionId).1.cachePool.entries.lookup regionId = some entry ∧
          (f.readVa now regionId).2 = .cacheHit entry.poolOffset region) := by
  rcases f.readVa_outcome now regionId with
    ⟨hnone, -⟩ | ⟨found, hfound, hhome, -⟩ | ⟨found, hfound, -, heq⟩ |
      ⟨found, epoch, entry, hfound, -, hentry, heq⟩
  · rw [hregion] at hnone
    cases hnone
  · cases hregion.symm.trans hfound
    exact absurd hhome hstate
  · cases hregion.symm.trans hfound
    rw [heq]
    exact ⟨.refl, Or.inl ⟨region.epoch, region.state, rfl⟩⟩
  · cases hregion.symm.trans hfound
    rw [heq]
    split_ifs
    · exact ⟨sameRegions_invalidateLocal _ regionId, Or.inl ⟨region.epoch, .invalid, rfl⟩⟩
    · refine ⟨.refl, Or.inr ⟨{ entry with lastAccess := now }, ?_, rfl⟩⟩
      exact (Maps.lookup_modify _ _ _).trans (by rw [hentry]; rfl)

end FetchAgent
end UniBus.Managed
