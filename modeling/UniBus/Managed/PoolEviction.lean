import UniBus.Foundations.Checked
import UniBus.Foundations.Recency
import UniBus.Managed.FetchAgent

/-!
# What an insertion evicts

An insertion first evicts until there is room by the byte counter. With a right
counter and distinct access times it evicts the shortest prefix of the entries in
access order that makes room. The evictions come before the steps that can fail,
and nothing takes them back.
-/
namespace UniBus.Managed

abbrev CachedRegion := Sigma fun _ : RegionId => CacheEntry

def bytesOf (entries : List CachedRegion) : ℕ := (entries.map fun e => e.2.len.toNat).sum

theorem bytesOf_cons (e : CachedRegion) (entries : List CachedRegion) :
    bytesOf (e :: entries) = e.2.len.toNat + bytesOf entries := by
  rw [bytesOf, List.map_cons, List.sum_cons, bytesOf]

theorem bytesOf_take_add_drop (k : ℕ) (entries : List CachedRegion) :
    bytesOf (entries.take k) + bytesOf (entries.drop k) = bytesOf entries := by
  rw [bytesOf, bytesOf, ← List.sum_append, ← List.map_append, List.take_append_drop, bytesOf]

/-- Turns regions Invalid, one after another. -/
def RegionTable.invalidateAll (t : RegionTable) (ids : List RegionId) : RegionTable :=
  ids.foldl (fun t id => t.setState id .invalid) t

theorem RegionTable.lookup_invalidateAll (t : RegionTable) (ids : List RegionId) (id : RegionId) :
    (t.invalidateAll ids).lookup id =
      if id ∈ ids then (t.lookup id).map fun info => { info with state := .invalid }
      else t.lookup id := by
  induction ids generalizing t with
  | nil => rfl
  | cons first ids ih =>
    have hfirst : t.invalidateAll (first :: ids) =
        (t.setState first .invalid).invalidateAll ids := rfl
    rw [hfirst, ih]
    by_cases hid : id = first
    · subst hid
      rw [RegionTable.lookup_setState, Option.map_map]
      simp [Function.comp_def]
    · rw [RegionTable.lookup_setState_ne _ hid]
      simp [hid]

namespace CachePool

/-- The entries, the least recently used one first. -/
def byAccess (p : CachePool) : List CachedRegion :=
  p.entries.entries.mergeSort fun a b => decide (a.2.lastAccess ≤ b.2.lastAccess)

/-- The table after the evictions of the given entries. -/
def notify (p : CachePool) (evicted : List CachedRegion) (table : RegionTable) : RegionTable :=
  if p.hasRegionTable then table.invalidateAll (evicted.map fun e => e.2.regionId) else table

/-! ## The eviction loop -/

/-- The entries `evicted` have gone and the entries `rest` are left. -/
structure Evicted (p : CachePool) (table : RegionTable) (evicted rest : List CachedRegion)
    (p' : CachePool) (table' : RegionTable) : Prop where
  entries : rest.Perm p'.entries.entries
  used : p'.usedBytes.toNat = bytesOf rest
  allocator : p'.allocator = p.allocator
  maxBytes : p'.maxBytes = p.maxBytes
  hasRegionTable : p'.hasRegionTable = p.hasRegionTable
  table : table' = p.notify evicted table

variable {p p' : CachePool} {table table' : RegionTable} {e : CachedRegion}
  {order evicted rest : List CachedRegion} {len : UInt64}

theorem evicted_nil (hperm : order.Perm p.entries.entries)
    (hused : p.usedBytes.toNat = bytesOf order) : Evicted p table [] order p table := by
  refine ⟨hperm, hused, rfl, rfl, rfl, ?_⟩
  unfold notify
  split_ifs <;> rfl

/-- The pool without one of its entries. -/
def afterEviction (p : CachePool) (e : CachedRegion) : CachePool :=
  { p with
    entries := p.entries.erase e.1
    usedBytes := p.usedBytes - e.2.len
    allocator := p.allocator.free e.2.poolOffset e.2.len }

theorem evictLru_of_sorted (hperm : (e :: rest).Perm p.entries.entries)
    (hsorted : (e :: rest).Pairwise fun a b => a.2.lastAccess < b.2.lastAccess) :
    p.evictLru table = some (p.afterEviction e, p.notify [e] table) := by
  have hmin := Recency.argmin_of_sorted hperm hsorted
  rw [List.head?_cons] at hmin
  simp only [evictLru, hmin]
  rfl

theorem Evicted.cons
    (h : Evicted (p.afterEviction e) (p.notify [e] table) evicted rest p' table') :
    Evicted p table (e :: evicted) rest p' table' := by
  refine ⟨h.entries, h.used, h.allocator, h.maxBytes, h.hasRegionTable, ?_⟩
  rw [h.table]
  unfold notify
  split_ifs <;> first | rfl | contradiction

/-- The loop has evicted the first `k` entries: fewer would not make room, and these
do unless it has failed. -/
structure Stops (p : CachePool) (table : RegionTable) (order : List CachedRegion) (len : UInt64)
    (room : CachePool × RegionTable × Bool) (k : ℕ) : Prop where
  needed : ∀ j < k, p.maxBytes.toNat < bytesOf (order.drop j) + len.toNat
  evicted : Evicted p table (order.take k) (order.drop k) room.1 room.2.1
  fits : room.2.2 = true → bytesOf (order.drop k) + len.toNat ≤ p.maxBytes.toNat

theorem toNat_usedBytes_add (hused : p.usedBytes.toNat = bytesOf order)
    (hfits : bytesOf order + len.toNat < 2 ^ 64) :
    (p.usedBytes + len).toNat = bytesOf order + len.toNat := by
  rw [← hused] at hfits ⊢
  exact Checked.toNat_addU64 hfits

theorem stops_zero (hperm : order.Perm p.entries.entries)
    (hused : p.usedBytes.toNat = bytesOf order) (hfits : bytesOf order + len.toNat < 2 ^ 64)
    (hroom : p.usedBytes + len ≤ p.maxBytes) : Stops p table order len (p, table, true) 0 := by
  refine ⟨by simp, evicted_nil hperm hused, ?_⟩
  intro _
  rw [UInt64.le_iff_toNat_le, toNat_usedBytes_add hused hfits] at hroom
  exact hroom

/-- The loop evicts a prefix of the entries in access order. -/
theorem makeRoom_stops (hperm : order.Perm p.entries.entries)
    (hsorted : order.Pairwise fun a b => a.2.lastAccess < b.2.lastAccess)
    (hused : p.usedBytes.toNat = bytesOf order)
    (hfits : bytesOf order + len.toNat < 2 ^ 64) :
    ∃ k, Stops p table order len (makeRoom len (order.length + 1) p table) k := by
  induction order generalizing p table with
  | nil =>
    by_cases hroom : p.usedBytes + len ≤ p.maxBytes
    · rw [makeRoom_of_le hroom]
      exact ⟨0, stops_zero hperm hused hfits hroom⟩
    · rw [makeRoom_of_empty (UInt64.not_le.mp hroom) hperm.nil_eq.symm]
      refine ⟨0, by simp, evicted_nil hperm hused, ?_⟩
      intro hmade
      cases hmade
  | cons e order ih =>
    by_cases hroom : p.usedBytes + len ≤ p.maxBytes
    · rw [makeRoom_of_le hroom]
      exact ⟨0, stops_zero hperm hused hfits hroom⟩
    · have hfull := UInt64.not_le.mp hroom
      have hsum := toNat_usedBytes_add hused hfits
      have hbytes := bytesOf_cons e order
      have hle : e.2.len ≤ p.usedBytes := by
        rw [UInt64.le_iff_toNat_le]
        omega
      have hless : (p.afterEviction e).usedBytes.toNat = bytesOf order := by
        rw [afterEviction, UInt64.toNat_sub_of_le _ _ hle]
        omega
      have hrest : ∃ k, Stops (p.afterEviction e) (p.notify [e] table) order len
          (makeRoom len (order.length + 1) (p.afterEviction e) (p.notify [e] table)) k :=
        ih (Recency.perm_entries_erase hperm) (List.pairwise_cons.mp hsorted).2 hless (by omega)
      obtain ⟨k, hstops⟩ := hrest
      rw [List.length_cons, makeRoom_of_evictLru hfull (evictLru_of_sorted hperm hsorted)]
      refine ⟨k + 1, ?_, hstops.evicted.cons, hstops.fits⟩
      intro j hj
      cases j with
      | zero =>
        rw [UInt64.lt_iff_toNat_lt, hsum] at hfull
        exact hfull
      | succ j => exact hstops.needed j (by omega)

/-! ## Successful insertions -/

variable {now : Instant} {regionId : RegionId} {epoch : UInt64} {entry : CacheEntry}

theorem insert_of_ok (hok : (p.insert table now regionId len epoch).2.2 = .ok entry) :
    (makeRoom len (p.entries.entries.length + 1) p table).2.2 = true ∧
      (p.insert table now regionId len epoch).1.entries =
        (makeRoom len (p.entries.entries.length + 1) p table).1.entries.insert regionId entry ∧
      (p.insert table now regionId len epoch).2.1 =
        (makeRoom len (p.entries.entries.length + 1) p table).2.1 := by
  rcases p.insert_inv table now regionId len epoch with
    ⟨-, message, hinsert⟩ | ⟨hmade, allocator, poolOffset, -, hinsert⟩
  · rw [hinsert] at hok
    cases hok
  · rw [hinsert] at hok ⊢
    cases hok
    exact ⟨hmade, rfl, rfl⟩

/-- An insertion that succeeds has evicted the shortest prefix of the entries in
access order that makes room, has kept all other entries, and has turned exactly the
evicted regions Invalid. -/
theorem insert_evicts_shortest_prefix (p : CachePool) (table : RegionTable) (now : Instant)
    (regionId : RegionId) (len epoch : UInt64) (entry : CacheEntry)
    (hused : p.usedBytes.toNat = bytesOf p.entries.entries)
    (hdistinct : (p.entries.entries.map fun e => e.2.lastAccess).Nodup)
    (hnew : p.entries.lookup regionId = none)
    (hfits : p.usedBytes.toNat + len.toNat < 2 ^ 64)
    (hok : (p.insert table now regionId len epoch).2.2 = .ok entry) :
    ∃ k, IsLeast {k | p.usedBytes.toNat - bytesOf (p.byAccess.take k) + len.toNat ≤
          p.maxBytes.toNat} k ∧
      (⟨regionId, entry⟩ :: p.byAccess.drop k).Perm
        (p.insert table now regionId len epoch).1.entries.entries ∧
      ∀ id, (p.insert table now regionId len epoch).2.1.lookup id =
        if p.hasRegionTable = true ∧ id ∈ (p.byAccess.take k).map fun e => e.2.regionId then
          (table.lookup id).map fun info => { info with state := .invalid }
        else table.lookup id := by
  have hperm : p.byAccess.Perm p.entries.entries := List.mergeSort_perm _ _
  have hbytes : bytesOf p.byAccess = bytesOf p.entries.entries :=
    (hperm.map fun e : CachedRegion => e.2.len.toNat).sum_eq
  have hused' : p.usedBytes.toNat = bytesOf p.byAccess := hused.trans hbytes.symm
  rw [hused'] at hfits
  have hstopped : ∃ k, Stops p table p.byAccess len
      (makeRoom len (p.byAccess.length + 1) p table) k :=
    makeRoom_stops hperm (Recency.pairwise_lt_mergeSort hdistinct) hused' hfits
  rw [hperm.length_eq] at hstopped
  obtain ⟨k, hstops⟩ := hstopped
  obtain ⟨hmade, hentries, htable⟩ := insert_of_ok hok
  have hsplit : ∀ j, p.usedBytes.toNat - bytesOf (p.byAccess.take j) =
      bytesOf (p.byAccess.drop j) := by
    intro j
    have htake := bytesOf_take_add_drop j p.byAccess
    omega
  refine ⟨k, ⟨?_, ?_⟩, ?_, ?_⟩
  · show p.usedBytes.toNat - bytesOf (p.byAccess.take k) + len.toNat ≤ p.maxBytes.toNat
    rw [hsplit]
    exact hstops.fits hmade
  · intro j hj
    by_contra hlt
    have hneeded := hstops.needed j (Nat.not_le.mp hlt)
    rw [← hsplit] at hneeded
    exact absurd hj (Nat.not_le.mpr hneeded)
  · have hnotMem : regionId ∉ (makeRoom len (p.entries.entries.length + 1) p table).1.entries := by
      intro hmem
      obtain ⟨old, hold⟩ := Option.isSome_iff_exists.mp (AList.lookup_isSome.mpr hmem)
      have hrange := (shrinks_makeRoom len (p.entries.entries.length + 1) p table).ranges regionId
        (old.poolOffset.toNat, old.len.toNat) (by rw [ranges, hold]; rfl)
      rw [ranges, hnew] at hrange
      cases hrange
    rw [hentries, AList.entries_insert_of_notMem hnotMem]
    exact hstops.evicted.entries.cons _
  · intro id
    rw [htable, hstops.evicted.table, notify]
    by_cases hattached : p.hasRegionTable = true
    · rw [if_pos hattached, RegionTable.lookup_invalidateAll]
      simp [hattached]
    · simp [hattached]

/-- Two copies of 8 bytes that fill a pool of 16. -/
def fullPool : CachePool :=
  (((withRegionTable (.new 0 64) 16).insert .new 0 ⟨1⟩ 8 0).1.insert .new 1 ⟨2⟩ 8 0).1

theorem insert_evicts_shortest_prefix_third :
    ∃ k, IsLeast {k | fullPool.usedBytes.toNat - bytesOf (fullPool.byAccess.take k) + 8 ≤ 16} k ∧
      (⟨⟨3⟩, ⟨⟨3⟩, 16, 8, 0, 2⟩⟩ :: fullPool.byAccess.drop k).Perm
        (fullPool.insert .new 2 ⟨3⟩ 8 0).1.entries.entries ∧
      ∀ id, (fullPool.insert .new 2 ⟨3⟩ 8 0).2.1.lookup id =
        if fullPool.hasRegionTable = true ∧
            id ∈ (fullPool.byAccess.take k).map fun e => e.2.regionId then
          (RegionTable.new.lookup id).map fun info => { info with state := .invalid }
        else RegionTable.new.lookup id :=
  insert_evicts_shortest_prefix fullPool .new 2 ⟨3⟩ 8 0 ⟨⟨3⟩, 16, 8, 0, 2⟩ (by decide) (by decide)
    (by decide) (by decide) rfl

/-! ## Failed insertions -/

/-- Nothing is evicted for `len` bytes: they fit by the counter, or there is nothing
to evict. -/
def KeepsAll (p : CachePool) (len : UInt64) : Prop :=
  p.usedBytes + len ≤ p.maxBytes ∨ p.entries.entries = []

/-- The entries, the counter and the region table are those from before. -/
structure Unchanged (p p' : CachePool) (table table' : RegionTable) : Prop where
  entries : p'.entries = p.entries
  usedBytes : p'.usedBytes = p.usedBytes
  table : table' = table

theorem length_evictLru (h : p.evictLru table = some (p', table')) :
    p'.entries.entries.length + 1 = p.entries.entries.length := by
  unfold evictLru at h
  split at h
  · cases h
  · next key entry hmin =>
    cases h
    exact Maps.length_erase_add_one (List.mem_keys_of_mem (List.argmin_mem hmin))

theorem length_makeRoom_le (len : UInt64) (fuel : ℕ) (p : CachePool) (table : RegionTable) :
    (makeRoom len fuel p table).1.entries.entries.length ≤ p.entries.entries.length :=
  makeRoom_keeps (I := fun p' _ => p'.entries.entries.length ≤ p.entries.entries.length)
    (fun _ _ _ _ hle hevict => by
      have hone := length_evictLru hevict
      omega) len fuel (Nat.le_refl _)

theorem evictLru_isSome (table : RegionTable) (h : p.entries.entries ≠ []) :
    ∃ evicted, p.evictLru table = some evicted := by
  unfold evictLru
  cases hmin : p.entries.entries.argmin fun e => e.2.lastAccess with
  | none => exact absurd (List.argmin_eq_none.mp hmin) h
  | some e => exact ⟨_, rfl⟩

theorem unchanged_makeRoom_iff (p : CachePool) (table : RegionTable) (len : UInt64) (fuel : ℕ) :
    Unchanged p (makeRoom len (fuel + 1) p table).1 table (makeRoom len (fuel + 1) p table).2.1 ↔
      p.KeepsAll len := by
  constructor
  · intro h
    by_contra hkeeps
    obtain ⟨hfull, hsome⟩ := not_or.mp hkeeps
    obtain ⟨⟨p₁, table₁⟩, hevict⟩ := evictLru_isSome table hsome
    have hentries := h.entries
    rw [makeRoom_of_evictLru (UInt64.not_le.mp hfull) hevict] at hentries
    have hle := length_makeRoom_le len fuel p₁ table₁
    have hone := length_evictLru hevict
    rw [hentries] at hle
    omega
  · rintro (hroom | hempty)
    · rw [makeRoom_of_le hroom]
      exact ⟨rfl, rfl, rfl⟩
    · by_cases hroom : p.usedBytes + len ≤ p.maxBytes
      · rw [makeRoom_of_le hroom]
        exact ⟨rfl, rfl, rfl⟩
      · rw [makeRoom_of_empty (UInt64.not_le.mp hroom) hempty]
        exact ⟨rfl, rfl, rfl⟩

theorem insert_of_error {message : String}
    (herror : (p.insert table now regionId len epoch).2.2 = .error message) :
    (p.insert table now regionId len epoch).1 =
        (makeRoom len (p.entries.entries.length + 1) p table).1 ∧
      (p.insert table now regionId len epoch).2.1 =
        (makeRoom len (p.entries.entries.length + 1) p table).2.1 := by
  rcases p.insert_inv table now regionId len epoch with
    ⟨-, message, hinsert⟩ | ⟨-, allocator, poolOffset, -, hinsert⟩
  · rw [hinsert]
    exact ⟨rfl, rfl⟩
  · rw [hinsert] at herror
    cases herror

theorem unchanged_of_error_iff {message : String}
    (herror : (p.insert table now regionId len epoch).2.2 = .error message) :
    Unchanged p (p.insert table now regionId len epoch).1 table
        (p.insert table now regionId len epoch).2.1 ↔ p.KeepsAll len := by
  obtain ⟨hpool, htable⟩ := insert_of_error herror
  rw [hpool, htable]
  exact unchanged_makeRoom_iff p table len p.entries.entries.length

end CachePool

namespace FetchAgent

theorem completeFetch_of_error {f : FetchAgent} {now : Instant} {regionId : RegionId}
    {len epoch : UInt64} {message : String}
    (herror : (f.completeFetch now regionId len epoch).2 = .error message) :
    (f.cachePool.insert f.regionTable now regionId len epoch).2.2 = .error message ∧
      (f.completeFetch now regionId len epoch).1 =
        { f with
          cachePool := (f.cachePool.insert f.regionTable now regionId len epoch).1
          regionTable := (f.cachePool.insert f.regionTable now regionId len epoch).2.1 } := by
  unfold completeFetch at herror ⊢
  generalize f.cachePool.insert f.regionTable now regionId len epoch = inserted at herror
  obtain ⟨pool, table, result⟩ := inserted
  cases result with
  | error e =>
    cases herror
    exact ⟨rfl, rfl⟩
  | ok entry => cases herror

/-- A failed insertion changes nothing just in case there was nothing to evict for it;
a failed fetch also clears its mark only if there was none. -/
theorem failed_insertion_unchanged_iff (p : CachePool) (table : RegionTable) (f : FetchAgent)
    (now : Instant) (regionId : RegionId) (len epoch : UInt64) :
    (∀ message, (p.insert table now regionId len epoch).2.2 = .error message →
      (p.Unchanged (p.insert table now regionId len epoch).1 table
          (p.insert table now regionId len epoch).2.1 ↔ p.KeepsAll len)) ∧
    ∀ message, (f.completeFetch now regionId len epoch).2 = .error message →
      (f.cachePool.Unchanged (f.completeFetch now regionId len epoch).1.cachePool f.regionTable
          (f.completeFetch now regionId len epoch).1.regionTable ∧
        (f.completeFetch now regionId len epoch).1.isFetchInFlight regionId = false ↔
      f.cachePool.KeepsAll len ∧ f.isFetchInFlight regionId = false) := by
  constructor
  · intro message herror
    exact CachePool.unchanged_of_error_iff herror
  · intro message herror
    obtain ⟨hinsert, hafter⟩ := completeFetch_of_error herror
    rw [hafter]
    exact and_congr (CachePool.unchanged_of_error_iff hinsert) Iff.rfl

/-- Region 1 is cached in a pool of 16 bytes, and region 2 is being fetched. -/
def fetchingAgent : FetchAgent :=
  let table := (RegionTable.new.insert ⟨⟨1⟩, 2, 0, 1, 0, 8, 0, .invalid⟩).insert
    ⟨⟨2⟩, 2, 0, 1, 8, 24, 0, .invalid⟩
  let cached := ((FetchAgent.new table (.withRegionTable (.new 0 16) 16)).completeFetch 0 ⟨1⟩ 8 0).1
  cached.markFetchInFlight ⟨2⟩

/-- The 24 bytes of region 2 can never fit; region 1 is dropped for them all the same. -/
theorem failed_fetch_evicts :
    let after := fetchingAgent.completeFetch 1 ⟨2⟩ 24 0
    after.2 = .error "cache pool full, cannot evict enough space" ∧
      (fetchingAgent.cachePool.entries.lookup ⟨1⟩).isSome = true ∧
      after.1.cachePool.entries.lookup ⟨1⟩ = none ∧
      (after.1.regionTable.lookup ⟨1⟩).map (fun info => info.state) = some .invalid ∧
      after.1.isFetchInFlight ⟨2⟩ = true ∧
      ¬ fetchingAgent.cachePool.Unchanged after.1.cachePool fetchingAgent.regionTable
        after.1.regionTable := by
  refine ⟨rfl, rfl, rfl, rfl, rfl, ?_⟩
  intro h
  exact absurd h.usedBytes (by decide)

end FetchAgent
end UniBus.Managed
