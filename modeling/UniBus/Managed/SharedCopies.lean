import UniBus.Managed.Invalidation

/-!
# Shared regions are cached

The region table says which regions a node holds a copy of, the cache pool holds
the copies. Fetches, invalidations and evictions change the two one after the
other; whatever their order, a region that the table calls Shared has a copy with
the epoch that the table gives.
-/
namespace UniBus.Managed

inductive AgentCall
  | readVa (now : Instant) (regionId : RegionId)
  | completeFetch (now : Instant) (regionId : RegionId) (len epoch : UInt64)
  | invalidateLocal (regionId : RegionId)
  | receiveInvalidate (regionId : RegionId) (newEpoch : UInt64)
  | evictLru
  deriving DecidableEq

/-- The log records what the reads return. -/
def FetchAgent.agentStep (f : FetchAgent) : AgentCall → FetchAgent × List ReadVaResult
  | .readVa now regionId => ((f.readVa now regionId).1, [(f.readVa now regionId).2])
  | .completeFetch now regionId len epoch => ((f.completeFetch now regionId len epoch).1, [])
  | .invalidateLocal regionId => (f.invalidateLocal regionId, [])
  | .receiveInvalidate regionId newEpoch => ((f.receiveInvalidate regionId newEpoch).1, [])
  | .evictLru =>
    match f.cachePool.evictLru f.regionTable with
    | none => (f, [])
    | some (cachePool, regionTable) => ({ f with cachePool, regionTable }, [])

/-- Entries are stored under their region, and every Shared region has one with
its epoch. -/
structure SharedCached (table : RegionTable) (p : CachePool) : Prop where
  linked : p.hasRegionTable = true
  keyed : ∀ id entry, p.entries.lookup id = some entry → entry.regionId = id
  cached : ∀ id info epoch, table.lookup id = some info → info.state = .shared epoch →
    p.epochOf id = some epoch

namespace SharedCached

variable {table table' : RegionTable} {p p' : CachePool}

theorem start (hstart : ∀ id info, table.lookup id = some info →
    info.state = .home ∨ info.state = .invalid) (allocator : SubAllocator) (maxBytes : UInt64) :
    SharedCached table (.withRegionTable allocator maxBytes) where
  linked := rfl
  keyed := by
    intro id entry hentry
    cases hentry
  cached := by
    intro id info epoch hinfo hshared
    rcases hstart id info hinfo with h | h
    · rw [h] at hshared
      cases hshared
    · rw [h] at hshared
      cases hshared

section
variable (h : SharedCached table p)
include h

theorem invalidate {regionId : RegionId} (hlinked : p'.hasRegionTable = p.hasRegionTable)
    (hentries : ∀ id entry, p'.entries.lookup id = some entry → p.entries.lookup id = some entry)
    (hothers : ∀ id, id ≠ regionId → p'.entries.lookup id = p.entries.lookup id) :
    SharedCached (table.setState regionId .invalid) p' where
  linked := hlinked.trans h.linked
  keyed := fun id entry hentry => h.keyed id entry (hentries id entry hentry)
  cached := by
    intro id info epoch hinfo hshared
    by_cases hid : id = regionId
    · subst hid
      rw [RegionTable.lookup_setState, Option.map_eq_some_iff] at hinfo
      obtain ⟨old, -, rfl⟩ := hinfo
      cases hshared
    · rw [RegionTable.lookup_setState_ne table hid] at hinfo
      rw [CachePool.epochOf, hothers id hid]
      exact h.cached id info epoch hinfo hshared

theorem drop {regionId : RegionId} (hlinked : p'.hasRegionTable = p.hasRegionTable)
    (hentries : p'.entries = p.entries.erase regionId) :
    SharedCached (table.setState regionId .invalid) p' := by
  apply h.invalidate hlinked
  · intro id entry hentry
    rw [hentries] at hentry
    exact Maps.lookup_erase_of_some hentry
  · intro id hid
    rw [hentries, AList.lookup_erase_ne hid]

theorem setEpoch (regionId : RegionId) (newEpoch : UInt64) :
    SharedCached (table.setEpoch regionId newEpoch) p := by
  refine ⟨h.linked, h.keyed, ?_⟩
  intro id info epoch hinfo hshared
  by_cases hid : id = regionId
  · subst hid
    rw [RegionTable.lookup_setEpoch, Option.map_eq_some_iff] at hinfo
    obtain ⟨old, hold, rfl⟩ := hinfo
    exact h.cached id old epoch hold hshared
  · rw [RegionTable.lookup_setEpoch_ne table hid] at hinfo
    exact h.cached id info epoch hinfo hshared

theorem lookup (now : Instant) (regionId : RegionId) :
    SharedCached table (p.lookup now regionId).1 where
  linked := h.linked
  keyed := by
    intro id entry hentry
    obtain ⟨old, hold, rfl⟩ := Maps.lookup_modify_eq_some hentry
    split_ifs <;> exact h.keyed id old hold
  cached := by
    intro id info epoch hinfo hshared
    rw [FetchAgent.epochOf_lookup]
    exact h.cached id info epoch hinfo hshared

theorem evictLru (hevict : p.evictLru table = some (p', table')) :
    SharedCached table' p' := by
  unfold CachePool.evictLru at hevict
  split at hevict
  · cases hevict
  · next key entry hmin =>
    have hkey : entry.regionId = key :=
      h.keyed key entry (AList.mem_lookup_iff.mpr (List.argmin_mem hmin))
    cases hevict
    rw [if_pos h.linked, hkey]
    exact h.drop rfl rfl

end

theorem makeRoom (len : UInt64) (fuel : ℕ) (p : CachePool) (table : RegionTable)
    (h : SharedCached table p) :
    SharedCached (CachePool.makeRoom len fuel p table).2.1
      (CachePool.makeRoom len fuel p table).1 :=
  CachePool.makeRoom_keeps (I := fun p table => SharedCached table p)
    (fun _ _ _ _ h hevict => h.evictLru hevict) len fuel h

theorem store (h : SharedCached table p) {regionId : RegionId} (entry : CacheEntry)
    (hkey : entry.regionId = regionId) (hentries : p'.entries = p.entries.insert regionId entry)
    (hlinked : p'.hasRegionTable = p.hasRegionTable) :
    SharedCached (table.setState regionId (.shared entry.epoch)) p' where
  linked := hlinked.trans h.linked
  keyed := by
    intro id other hother
    rw [hentries] at hother
    by_cases hid : id = regionId
    · subst hid
      rw [AList.lookup_insert] at hother
      cases hother
      exact hkey
    · rw [AList.lookup_insert_ne hid] at hother
      exact h.keyed id other hother
  cached := by
    intro id info epoch hinfo hshared
    rw [CachePool.epochOf, hentries]
    by_cases hid : id = regionId
    · subst hid
      rw [RegionTable.lookup_setState, Option.map_eq_some_iff] at hinfo
      obtain ⟨old, -, rfl⟩ := hinfo
      cases hshared
      rw [AList.lookup_insert]
      rfl
    · rw [RegionTable.lookup_setState_ne table hid] at hinfo
      rw [AList.lookup_insert_ne hid]
      exact h.cached id info epoch hinfo hshared

end SharedCached

namespace FetchAgent

/-- The two tables of the agent agree. -/
def Consistent (f : FetchAgent) : Prop := SharedCached f.regionTable f.cachePool

variable {f : FetchAgent}

section
variable (h : f.Consistent)
include h

theorem Consistent.invalidateLocal (regionId : RegionId) :
    (f.invalidateLocal regionId).Consistent := by
  unfold FetchAgent.invalidateLocal CachePool.remove
  cases f.cachePool.entries.lookup regionId with
  | none => exact SharedCached.invalidate h rfl (fun _ _ hentry => hentry) fun _ _ => rfl
  | some entry => exact SharedCached.drop h rfl rfl

/-- A read of a Shared region hits the copy, whose epoch is the region's. -/
theorem Consistent.readVa_shared (now : Instant) {regionId : RegionId} {info : RegionInfo}
    {epoch : UInt64} (hinfo : f.regionTable.lookup regionId = some info)
    (hshared : info.state = .shared epoch) :
    ∃ entry, f.cachePool.entries.lookup regionId = some entry ∧ entry.epoch = epoch ∧
      f.readVa now regionId = ({ f with cachePool := (f.cachePool.lookup now regionId).1 },
        .cacheHit entry.poolOffset info) := by
  have hepoch := h.cached regionId info epoch hinfo hshared
  rw [CachePool.epochOf, Option.map_eq_some_iff] at hepoch
  obtain ⟨entry, hentry, rfl⟩ := hepoch
  refine ⟨entry, hentry, rfl, ?_⟩
  simp only [readVa, hinfo, hshared, CachePool.lookup, hentry, Option.map_some]
  rw [if_neg (UInt64.lt_irrefl _)]

theorem Consistent.readVa (now : Instant) (regionId : RegionId) :
    (f.readVa now regionId).1.Consistent := by
  cases hinfo : f.regionTable.lookup regionId with
  | none => simpa only [FetchAgent.readVa, hinfo] using h
  | some info =>
    cases hstate : info.state with
    | home => simpa only [FetchAgent.readVa, hinfo, hstate] using h
    | invalid => simpa only [FetchAgent.readVa, hinfo, hstate] using h
    | shared epoch =>
      obtain ⟨entry, -, -, hread⟩ := h.readVa_shared now hinfo hstate
      rw [hread]
      exact SharedCached.lookup h now regionId

theorem Consistent.receiveInvalidate (regionId : RegionId) (newEpoch : UInt64) :
    (f.receiveInvalidate regionId newEpoch).1.Consistent := by
  unfold FetchAgent.receiveInvalidate
  split
  · exact h
  · split
    · exact h
    · split_ifs
      · exact SharedCached.setEpoch h regionId newEpoch
      · exact h
    · split_ifs
      · exact SharedCached.setEpoch (h.invalidateLocal regionId) regionId newEpoch
      · exact h

/-- The evictions of a fetch that finds no room stay, and so do their effects on
the region table. -/
theorem Consistent.completeFetch (now : Instant) (regionId : RegionId) (len epoch : UInt64) :
    (f.completeFetch now regionId len epoch).1.Consistent := by
  have hroom := SharedCached.makeRoom len (f.cachePool.entries.entries.length + 1) f.cachePool
    f.regionTable h
  rcases f.completeFetch_eq now regionId len epoch with hfull | ⟨allocator, poolOffset, hstored⟩
  · rw [hfull]
    exact hroom
  · rw [hstored]
    refine SharedCached.setEpoch ?_ regionId epoch
    exact hroom.store ⟨regionId, poolOffset, len, epoch, now⟩ rfl rfl rfl

theorem Consistent.agentStep (call : AgentCall) :
    (f.agentStep call).1.Consistent := by
  cases call with
  | readVa now regionId => exact h.readVa now regionId
  | completeFetch now regionId len epoch => exact h.completeFetch now regionId len epoch
  | invalidateLocal regionId => exact h.invalidateLocal regionId
  | receiveInvalidate regionId newEpoch => exact h.receiveInvalidate regionId newEpoch
  | evictLru =>
    unfold FetchAgent.agentStep
    dsimp only
    split
    · exact h
    · next cachePool regionTable hevict => exact SharedCached.evictLru h hevict

theorem Consistent.run (calls : List AgentCall) :
    (Runs.run FetchAgent.agentStep f calls).1.Consistent := by
  induction calls generalizing f with
  | nil => exact h
  | cons call calls ih => exact ih (h.agentStep call)

end

/-- After any calls a Shared region is cached with its epoch, a read of it is a
hit, and the lookup that follows the read finds the copy. -/
theorem shared_means_cached (table : RegionTable) (allocator : SubAllocator) (maxBytes : UInt64)
    (hstart : ∀ id info, table.lookup id = some info →
      info.state = .home ∨ info.state = .invalid) (calls : List AgentCall) :
    let f := (Runs.run agentStep (.new table (.withRegionTable allocator maxBytes)) calls).1
    ∀ regionId info epoch, f.regionTable.lookup regionId = some info →
      info.state = .shared epoch →
      ∃ entry, f.cachePool.entries.lookup regionId = some entry ∧ entry.epoch = epoch ∧
        ∀ now, (f.readVa now regionId).2 = .cacheHit entry.poolOffset info ∧
          ∀ later, (((f.readVa now regionId).1.cachePool.lookup later regionId).2.map
            CacheEntry.poolOffset) = some entry.poolOffset := by
  intro f regionId info epoch hinfo hshared
  have hempty : (new table (.withRegionTable allocator maxBytes)).Consistent :=
    SharedCached.start hstart allocator maxBytes
  have hconsistent : f.Consistent := hempty.run calls
  obtain ⟨entry, hentry, hepoch, -⟩ := hconsistent.readVa_shared 0 hinfo hshared
  refine ⟨entry, hentry, hepoch, ?_⟩
  intro now
  obtain ⟨entry', hentry', -, hread⟩ := hconsistent.readVa_shared now hinfo hshared
  obtain rfl := Option.some.inj (hentry.symm.trans hentry')
  rw [hread]
  refine ⟨rfl, ?_⟩
  intro later
  simp [CachePool.lookup, Maps.lookup_modify, hentry]

def twoInvalidRegions : RegionTable :=
  (RegionTable.new.insert ⟨⟨1⟩, 1, 0, 7, 0, 8, 0, .invalid⟩).insert
    ⟨⟨2⟩, 1, 0, 7, 8, 8, 0, .invalid⟩

theorem shared_means_cached_evicting :
    let f := (Runs.run agentStep (.new twoInvalidRegions (.withRegionTable (.new 0 64) 8))
      [.completeFetch 0 ⟨1⟩ 8 3, .completeFetch 1 ⟨2⟩ 8 4]).1
    ∃ entry, f.cachePool.entries.lookup ⟨2⟩ = some entry ∧ entry.epoch = 4 := by
  have hstates : ∀ e ∈ twoInvalidRegions.entries.entries,
      e.2.state = .home ∨ e.2.state = .invalid := by decide
  obtain ⟨entry, hentry, hepoch, -⟩ := shared_means_cached twoInvalidRegions (.new 0 64) 8
    (fun id info hinfo => hstates ⟨id, info⟩ (AList.mem_lookup_iff.mp hinfo))
    [.completeFetch 0 ⟨1⟩ 8 3, .completeFetch 1 ⟨2⟩ 8 4] ⟨2⟩
    ⟨⟨2⟩, 1, 0, 7, 8, 8, 4, .shared 4⟩ 4 (by decide) rfl
  exact ⟨entry, hentry, hepoch⟩

end FetchAgent
end UniBus.Managed
