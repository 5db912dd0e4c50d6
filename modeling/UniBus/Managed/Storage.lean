import UniBus.Foundations.Checked
import UniBus.Managed.Daemon

/-!
# Storage of home regions and cached copies

The placer and the cache pool of a daemon hand out offsets into the same pool
device, each from a cursor of its own. Runs of the region handlers, with any
number of fetches under way.
-/
namespace UniBus.Managed

open Ranges

structure WaitingRead where
  region : RegionInfo
  offsetInRegion : UInt64
  len : UInt32
  deriving DecidableEq, Repr

structure ServingDaemon where
  daemon : Daemon
  waiting : List WaitingRead

inductive RegionInput
  | regionAlloc (req : Daemon.RegionAllocRequest)
  | regionFree (regionId : RegionId)
  | regionRegisterRemote (info : RegionInfo)
  | regionInvalidate (regionId : RegionId) (newEpoch : UInt64)
  | verbReadVa (now : Instant) (va : UbVa) (offset : UInt64) (len : UInt32)
  /-- The bytes for a waiting read arrive. -/
  | fetched (now : Instant) (i : ℕ) (fullData : List UInt8)
  /-- A waiting read gives up. -/
  | fetchFailed (i : ℕ)

namespace ServingDaemon

def start (config : DaemonConfig) : ServingDaemon := ⟨.start config, []⟩

def step (s : ServingDaemon) : RegionInput → ServingDaemon × List Unit
  | .regionAlloc req => ({ s with daemon := (s.daemon.regionAlloc req).1 }, [])
  | .regionFree regionId => ({ s with daemon := (s.daemon.regionFree regionId).1 }, [])
  | .regionRegisterRemote info =>
    ({ s with daemon := (s.daemon.regionRegisterRemote info).1 }, [])
  | .regionInvalidate regionId newEpoch =>
    ({ s with daemon := (s.daemon.regionInvalidate regionId newEpoch).1 }, [])
  | .verbReadVa now va offset len =>
    match s.daemon.verbReadVa now va offset len with
    | (daemon, .answered _) => ({ s with daemon }, [])
    | (daemon, .fetching region) =>
      (⟨daemon, s.waiting ++ [⟨region, va.offset + offset, len⟩]⟩, [])
  | .fetched now i fullData =>
    match s.waiting[i]? with
    | none => (s, [])
    | some read =>
      (⟨(s.daemon.finishReadVa now read.region read.offsetInRegion read.len fullData).1,
        s.waiting.eraseIdx i⟩, [])
  | .fetchFailed i => ({ s with waiting := s.waiting.eraseIdx i }, [])

end ServingDaemon

namespace Daemon

/-- The bytes of the pool device that home regions live in. -/
def homeRanges (d : Daemon) : RegionId → Option (ℕ × ℕ) := d.placer.ranges

/-- The bytes of the pool device that cached copies live in. -/
def cachedRanges (d : Daemon) : RegionId → Option (ℕ × ℕ) := d.fetchAgent.cachePool.ranges

/-- Home regions and cached copies are pairwise disjoint. -/
structure StorageDisjoint (d : Daemon) : Prop where
  homes : ∀ id id' r r', id ≠ id' → d.homeRanges id = some r → d.homeRanges id' = some r' →
    Disjoint (span r) (span r')
  cached : ∀ id id' r r', id ≠ id' → d.cachedRanges id = some r → d.cachedRanges id' = some r' →
    Disjoint (span r) (span r')
  apart : ∀ id id' r r', d.homeRanges id = some r → d.cachedRanges id' = some r' →
    Disjoint (span r) (span r')

/-- The cursor of the pool's allocator in the placer. -/
def placerCursor (d : Daemon) : ℕ :=
  ((d.placer.subAllocators.lookup (d.nodeId, 0)).map fun a => a.allocated.toNat).getD 0

/-- Both tables are packed below their cursors, and apart from each other. -/
structure Stored (d : Daemon) : Prop where
  allocators : ∀ key a, d.placer.subAllocators.lookup key = some a →
    key = (d.nodeId, 0) ∧ a.baseOffset = 0
  cacheBase : d.fetchAgent.cachePool.allocator.baseOffset = 0
  homes : Packed d.homeRanges d.placerCursor
  cached : Packed d.cachedRanges d.fetchAgent.cachePool.allocator.allocated.toNat
  apart : ∀ id id' r r', d.homeRanges id = some r → d.cachedRanges id' = some r' →
    Disjoint (span r) (span r')

theorem Stored.storageDisjoint {d : Daemon} (h : Stored d) : StorageDisjoint d :=
  ⟨h.homes.disjoint, h.cached.disjoint, h.apart⟩

theorem Stored.of_shrinks {d d' : Daemon} (h : Stored d) (hnode : d'.nodeId = d.nodeId)
    (hallocators : ∀ key, d'.placer.subAllocators.lookup key = d.placer.subAllocators.lookup key)
    (hhomes : ∀ id r, d'.homeRanges id = some r → d.homeRanges id = some r)
    (hpool : d.fetchAgent.cachePool.Shrinks d'.fetchAgent.cachePool) : Stored d' := by
  have hcursor : d'.placerCursor = d.placerCursor := by
    rw [placerCursor, placerCursor, hnode, hallocators]
  refine ⟨?_, ?_, ?_, ?_, ?_⟩
  · intro key a ha
    rw [hallocators] at ha
    rw [hnode]
    exact h.allocators key a ha
  · rw [hpool.allocator]
    exact h.cacheBase
  · rw [hcursor]
    exact h.homes.of_le hhomes
  · rw [hpool.allocator]
    exact h.cached.of_le hpool.ranges
  · intro id id' r r' hr hr'
    exact h.apart id id' r r' (hhomes id r hr) (hpool.ranges id' r' hr')

/-- The allocator's next `size` bytes do not wrap around and, if they are free in
its pool, meet none of the given ranges. -/
def NextFree (a : SubAllocator) (size : UInt64) (ranges : RegionId → Option (ℕ × ℕ)) : Prop :=
  a.allocated.toNat + size.toNat < 2 ^ 64 ∧
    (a.allocated + size ≤ a.totalLen → ∀ id r, ranges id = some r →
      Disjoint (span (a.allocated.toNat, size.toNat)) (span r))

theorem toNat_allocated_add {a : SubAllocator} {size : UInt64}
    {ranges : RegionId → Option (ℕ × ℕ)} (h : NextFree a size ranges) :
    (a.allocated + size).toNat = a.allocated.toNat + size.toNat := Checked.toNat_addU64 h.1

theorem Stored.regionAlloc {d : Daemon} (h : Stored d) {req : RegionAllocRequest}
    (hfree : ∀ key a, d.placer.target req.hints d.nodeId = .ok (key, a) →
      NextFree a req.size d.cachedRanges) :
    Stored (d.regionAlloc req).1 := by
  unfold Daemon.regionAlloc
  split_ifs
  · exact h
  cases hplace : d.placer.place req.hints d.nodeId with
  | error e => exact h
  | ok placed =>
    obtain ⟨placer, va, placement⟩ := placed
    obtain ⟨key, a, htarget, hfits, hallocators, hself, hothers⟩ := d.placer.place_eq_ok hplace
    obtain ⟨hnowrap, hmeets⟩ := hfree key a htarget
    obtain ⟨rfl, hbase⟩ := h.allocators key a (d.placer.target_eq_ok htarget)
    have hcursor : d.placerCursor = a.allocated.toNat := by
      rw [placerCursor, d.placer.target_eq_ok htarget]
      rfl
    rw [hbase, UInt64.zero_add] at hself
    have hranges : ∀ id r, id ≠ ⟨d.placer.nextRegionId⟩ → placer.ranges id = some r →
        d.homeRanges id = some r := by
      intro id r hid hr
      rwa [hothers id hid] at hr
    refine ⟨?_, h.cacheBase, ?_, h.cached, ?_⟩
    · intro key' a' ha'
      have hinsert : (d.placer.subAllocators.insert (d.nodeId, 0)
          { a with allocated := a.allocated + req.hints.size }).lookup key' = some a' := by
        rw [← hallocators]
        exact ha'
      by_cases hkey : key' = (d.nodeId, 0)
      · subst hkey
        rw [AList.lookup_insert] at hinsert
        cases hinsert
        exact ⟨rfl, hbase⟩
      · rw [AList.lookup_insert_ne hkey] at hinsert
        exact h.allocators key' a' hinsert
    · -- the new region takes the range at the cursor
      have htaken : Packed placer.ranges (d.placerCursor + req.size.toNat) := by
        apply h.homes.take ⟨d.placer.nextRegionId⟩ req.size.toNat hranges
        rw [hself, hcursor]
        rfl
      have hmoved : placerCursor { d with placer := placer } =
          d.placerCursor + req.size.toNat := by
        rw [placerCursor, hallocators, AList.lookup_insert, hcursor,
          ← toNat_allocated_add (hfree _ a htarget)]
        rfl
      rw [← hmoved] at htaken
      simpa [homeRanges, placerCursor] using htaken
    · intro id id' r r' hr hr'
      simp only [homeRanges, Placer.ranges_setMrHandle] at hr
      by_cases hid : id = ⟨d.placer.nextRegionId⟩
      · subst hid
        obtain rfl := Option.some.inj (hself.symm.trans hr)
        exact hmeets hfits id' r' hr'
      · exact h.apart id id' r r' (hranges id r hid hr) hr'

theorem Stored.finishReadVa {d : Daemon} (h : Stored d) (now : Instant) (region : RegionInfo)
    (offsetInRegion : UInt64) (len : UInt32) (fullData : List UInt8)
    (hfree : NextFree d.fetchAgent.cachePool.allocator region.len d.homeRanges) :
    Stored (d.finishReadVa now region offsetInRegion len fullData).1 := by
  rcases d.fetchAgent.completeFetch_cases now region.regionId region.len region.epoch with
    ⟨-, hshrinks⟩ | ⟨entry, -, hinserted⟩
  · refine h.of_shrinks (by simp) (by simp) ?_ (by simpa using hshrinks)
    intro id r hr
    simpa [homeRanges] using hr
  · have hoffset : entry.poolOffset = d.fetchAgent.cachePool.allocator.allocated := by
      rw [hinserted.poolOffset, h.cacheBase, UInt64.zero_add]
    have hself := hinserted.ranges_self
    rw [hoffset] at hself
    have hcached : ∀ id, (d.finishReadVa now region offsetInRegion len fullData).1.cachedRanges id =
        (d.fetchAgent.completeFetch now region.regionId region.len
          region.epoch).1.cachePool.ranges id := by
      simp [cachedRanges]
    refine ⟨?_, ?_, ?_, ?_, ?_⟩
    · simpa using h.allocators
    · rw [finishReadVa_fetchAgent, hinserted.allocator]
      exact h.cacheBase
    · rw [homeRanges, placerCursor, finishReadVa_nodeId, finishReadVa_placer]
      exact h.homes
    · rw [finishReadVa_fetchAgent, hinserted.allocator, toNat_allocated_add hfree]
      apply h.cached.take region.regionId region.len.toNat
      · intro id r hid hr
        rw [hcached] at hr
        exact hinserted.ranges_ne id r hid hr
      · rw [hcached]
        exact hself
    · intro id id' r r' hr hr'
      rw [hcached] at hr'
      have hr : d.homeRanges id = some r := by simpa [homeRanges] using hr
      by_cases hid : id' = region.regionId
      · subst hid
        obtain rfl := Option.some.inj (hself.symm.trans hr')
        exact (hfree.2 hinserted.fits id r hr).symm
      · exact h.apart id id' r r' hr (hinserted.ranges_ne id' r' hid hr')

theorem Stored.regionFree {d : Daemon} (h : Stored d) (regionId : RegionId) :
    Stored (d.regionFree regionId).1 := by
  unfold Daemon.regionFree
  split_ifs
  · exact h
  cases hfree : d.placer.free regionId with
  | none => exact h
  | some freed =>
    obtain ⟨hallocators, hranges⟩ := d.placer.free_eq_some hfree
    exact h.of_shrinks rfl hallocators hranges .refl

theorem Stored.regionRegisterRemote {d : Daemon} (h : Stored d) (info : RegionInfo) :
    Stored (d.regionRegisterRemote info).1 := by
  unfold Daemon.regionRegisterRemote
  split_ifs
  · exact h
  · exact h.of_shrinks rfl (fun _ => rfl) (fun _ _ hr => hr) .refl

theorem Stored.regionInvalidate {d : Daemon} (h : Stored d) (regionId : RegionId)
    (newEpoch : UInt64) : Stored (d.regionInvalidate regionId newEpoch).1 := by
  unfold Daemon.regionInvalidate
  split_ifs
  · exact h
  · exact h.of_shrinks rfl (fun _ => rfl) (fun _ _ hr => hr)
      (d.fetchAgent.shrinks_receiveInvalidate regionId newEpoch)

theorem verbReadVa_shrinks (d : Daemon) (now : Instant) (va : UbVa) (offset : UInt64)
    (len : UInt32) :
    ∃ fetchAgent, (d.verbReadVa now va offset len).1 = { d with fetchAgent } ∧
      d.fetchAgent.cachePool.Shrinks fetchAgent.cachePool := by
  have hread := d.fetchAgent.shrinks_readVa now va.regionId
  unfold Daemon.verbReadVa
  split_ifs
  · exact ⟨d.fetchAgent, rfl, .refl⟩
  dsimp only
  generalize d.fetchAgent.readVa now va.regionId = result at hread
  obtain ⟨fetchAgent, result⟩ := result
  cases result with
  | unknownRegion => exact ⟨fetchAgent, rfl, hread⟩
  | home region => exact ⟨fetchAgent, rfl, hread⟩
  | cacheMiss region => exact ⟨fetchAgent, rfl, hread⟩
  | cacheHit poolOffset region =>
    have hlookup := hread.trans (CachePool.shrinks_lookup now va.regionId)
    dsimp only
    split
    · rename_i heq
      rw [heq] at hlookup
      exact ⟨_, rfl, hlookup⟩
    · rename_i heq
      rw [heq] at hlookup
      split_ifs
      · exact ⟨_, rfl, hlookup⟩
      · exact ⟨_, rfl, hlookup⟩

theorem Stored.verbReadVa {d : Daemon} (h : Stored d) (now : Instant) (va : UbVa)
    (offset : UInt64) (len : UInt32) : Stored (d.verbReadVa now va offset len).1 := by
  obtain ⟨fetchAgent, hafter, hpool⟩ := d.verbReadVa_shrinks now va offset len
  rw [hafter]
  exact h.of_shrinks rfl (fun _ => rfl) (fun _ _ hr => hr) hpool

end Daemon

/-- Where an allocation takes new bytes, they are free of the other table's. -/
def StorageFree (s : ServingDaemon) (_ : List Unit) : RegionInput → Prop
  | .regionAlloc req => ∀ key a, s.daemon.placer.target req.hints s.daemon.nodeId = .ok (key, a) →
      Daemon.NextFree a req.size s.daemon.cachedRanges
  | .fetched _ i _ => ∀ read, s.waiting[i]? = some read →
      Daemon.NextFree s.daemon.fetchAgent.cachePool.allocator read.region.len s.daemon.homeRanges
  | _ => True

theorem stored_step {s : ServingDaemon} {i : RegionInput} {log : List Unit}
    (h : s.daemon.Stored) (hi : StorageFree s log i) : (s.step i).1.daemon.Stored := by
  cases i with
  | regionAlloc req => exact h.regionAlloc hi
  | regionFree regionId => exact h.regionFree regionId
  | regionRegisterRemote info => exact h.regionRegisterRemote info
  | regionInvalidate regionId newEpoch => exact h.regionInvalidate regionId newEpoch
  | verbReadVa now va offset len =>
    have hread := h.verbReadVa now va offset len
    simp only [ServingDaemon.step]
    split
    · rename_i heq
      rwa [heq] at hread
    · rename_i heq
      rwa [heq] at hread
  | fetched now i fullData =>
    simp only [ServingDaemon.step]
    cases hread : s.waiting[i]? with
    | none => exact h
    | some read =>
      exact h.finishReadVa now read.region read.offsetInRegion read.len fullData (hi read hread)
  | fetchFailed i => exact h

theorem stored_start (config : DaemonConfig) : (Daemon.start config).Stored := by
  have hlen : UInt64.ofNat memoryPoolSize ≠ 0 := by decide
  unfold Daemon.start
  dsimp only
  split_ifs
  · simp only [MrTable.register, if_neg hlen]
    refine ⟨?_, rfl, packed_empty, packed_empty, ?_⟩
    · intro key a ha
      by_cases hkey : key = (config.nodeId, 0)
      · subst hkey
        rw [Placer.registerSubAllocator, AList.lookup_insert] at ha
        cases ha
        exact ⟨rfl, rfl⟩
      · rw [Placer.registerSubAllocator, AList.lookup_insert_ne hkey] at ha
        cases ha
    · intro id id' r r' hr
      cases hr
  · refine ⟨?_, rfl, packed_empty, packed_empty, ?_⟩
    · intro key a ha
      cases ha
    · intro id id' r r' hr
      cases hr

/-- In every run in which the bytes taken for a region or a copy are free of the
other table's ranges, home regions and cached copies are pairwise disjoint. -/
theorem home_and_cached_disjoint (config : DaemonConfig) {inputs : List RegionInput}
    (hinputs : Runs.Meets ServingDaemon.step StorageFree (.start config) [] inputs) :
    (Runs.run ServingDaemon.step (.start config) inputs).1.daemon.StorageDisjoint := by
  have hrun := Runs.run_invariant (I := fun s _ => s.daemon.Stored)
    (fun s log i h hi => stored_step h hi) (stored_start config) hinputs
  exact hrun.storageDisjoint

/-- Node 1 with the managed layer enabled and the default sizes. -/
def defaultConfig : DaemonConfig where
  podId := 1
  nodeId := 1
  enabled := true
  memoryPoolReserve := 2 ^ 26
  cacheMaxBytes := 2 ^ 29
  writerLeaseMs := 5000
  costWeights := ⟨1, 3 / 10, 1 / 2, 1 / 5⟩
  jettyTable := JettyTable.new 1 16 16

def remoteRegion : RegionInfo := ⟨⟨7⟩, 2, 0, 1, 0, 4096, 0, .invalid⟩

def allocRegion : RegionInput := .regionAlloc ⟨4096, "normal", none⟩

/-- The remote region becomes known and is read, which starts a fetch. -/
def startFetch : List RegionInput :=
  [.regionRegisterRemote remoteRegion, .verbReadVa 0 (UbVa.new ⟨7⟩ 0) 0 16]

def finishFetch : RegionInput := .fetched 0 0 (List.replicate 4096 0)

theorem run_finishFetch (inputs : List RegionInput) {s : ServingDaemon}
    (hs : (Runs.run ServingDaemon.step (.start defaultConfig) inputs).1 = s)
    (hwaiting : s.waiting[0]? = some ⟨remoteRegion, 0, 16⟩) :
    (Runs.run ServingDaemon.step (.start defaultConfig) (inputs ++ [finishFetch])).1.daemon =
      (s.daemon.finishReadVa 0 remoteRegion 0 16 (List.replicate 4096 0)).1 := by
  rw [Runs.run_append, hs]
  simp only [Runs.run_cons, Runs.run_nil, ServingDaemon.step, finishFetch, hwaiting]

/-- A region is freed and another one placed behind it; the copy of the remote region then
takes the bytes of the freed one and lies beside the live one. -/
def freedFirst : List RegionInput := [allocRegion, .regionFree ⟨1⟩, allocRegion] ++ startFetch

theorem home_and_cached_disjoint_after_free :
    let d := (Runs.run ServingDaemon.step (.start defaultConfig)
      (freedFirst ++ [finishFetch])).1.daemon
    d.homeRanges ⟨2⟩ = some (4096, 4096) ∧ d.cachedRanges ⟨7⟩ = some (0, 4096) ∧
      d.StorageDisjoint := by
  intro d
  have hd : d = _ := run_finishFetch freedFirst rfl rfl
  refine ⟨?_, ?_, ?_⟩
  · rw [hd, Daemon.homeRanges, Daemon.finishReadVa_placer]
    rfl
  · rw [hd, Daemon.cachedRanges, Daemon.finishReadVa_fetchAgent]
    rfl
  · apply home_and_cached_disjoint
    refine ⟨?_, trivial, ?_, trivial, trivial, ?_, trivial⟩
    · intro key a htarget
      cases htarget
      refine ⟨by decide, ?_⟩
      intro _ id r hr
      cases hr
    · intro key a htarget
      cases htarget
      refine ⟨by decide, ?_⟩
      intro _ id r hr
      cases hr
    · intro read hread
      cases hread
      refine ⟨by decide, ?_⟩
      intro _ id r hr
      by_cases hid : id = ⟨2⟩
      · subst hid
        cases hr
        exact Set.disjoint_left.mpr fun x hx hx' => absurd hx'.1 (not_le.mpr hx.2)
      · have hnone : none = some r := (congrArg _ (List.dlookup_cons_ne [] _ hid)).symm.trans hr
        cases hnone

/-- The copy of the remote region takes the same bytes as the home region. -/
theorem fetch_overwrites_home :
    ¬ (Runs.run ServingDaemon.step (.start defaultConfig)
      (allocRegion :: startFetch ++ [finishFetch])).1.daemon.StorageDisjoint := by
  have hd := run_finishFetch (allocRegion :: startFetch) rfl rfl
  intro h
  have hhome : (Runs.run ServingDaemon.step (.start defaultConfig)
      (allocRegion :: startFetch ++ [finishFetch])).1.daemon.homeRanges ⟨1⟩ = some (0, 4096) := by
    rw [hd, Daemon.homeRanges, Daemon.finishReadVa_placer]
    rfl
  have hcached : (Runs.run ServingDaemon.step (.start defaultConfig)
      (allocRegion :: startFetch ++ [finishFetch])).1.daemon.cachedRanges ⟨7⟩ =
        some (0, 4096) := by
    rw [hd, Daemon.cachedRanges, Daemon.finishReadVa_fetchAgent]
    rfl
  have hmem : 0 ∈ span (0, 4096) := ⟨le_rfl, by decide⟩
  exact Set.disjoint_left.mp (h.apart ⟨1⟩ ⟨7⟩ _ _ hhome hcached) hmem hmem

end UniBus.Managed
