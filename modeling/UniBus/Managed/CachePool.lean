import Mathlib.Data.List.MinMax
import UniBus.Foundations.Ranges
import UniBus.Managed.Region
import UniBus.Managed.SubAlloc

/-!
# The cache pool of a node

Copies of remote regions in the pool of a node, with least-recently-used
eviction. A pool built with a region table sets an evicted region to Invalid
there; the operations that may evict take and return the table.
-/
namespace UniBus.Managed

structure CacheEntry where
  regionId : RegionId
  poolOffset : UInt64
  len : UInt64
  epoch : UInt64
  lastAccess : Instant
  deriving DecidableEq, Repr

structure CachePool where
  entries : AList (fun _ : RegionId => CacheEntry)
  allocator : SubAllocator
  maxBytes : UInt64
  usedBytes : UInt64
  /-- Whether the pool refers to a region table. -/
  hasRegionTable : Bool

namespace CachePool

def new (allocator : SubAllocator) (maxBytes : UInt64) : CachePool :=
  ⟨∅, allocator, maxBytes, 0, false⟩

def withRegionTable (allocator : SubAllocator) (maxBytes : UInt64) : CachePool :=
  ⟨∅, allocator, maxBytes, 0, true⟩

variable (p : CachePool)

/-- Looks an entry up and refreshes its access time. -/
def lookup (now : Instant) (regionId : RegionId) : CachePool × Option CacheEntry :=
  ({ p with entries := Maps.modify p.entries regionId fun e => { e with lastAccess := now } },
    (p.entries.lookup regionId).map fun e => { e with lastAccess := now })

def remove (regionId : RegionId) : CachePool × Option CacheEntry :=
  match p.entries.lookup regionId with
  | none => (p, none)
  | some entry =>
    ({ p with
        entries := p.entries.erase regionId
        usedBytes := p.usedBytes - entry.len
        allocator := p.allocator.free entry.poolOffset entry.len },
      some entry)

/-- Evicts the least recently used entry; there is none in an empty pool. -/
def evictLru (table : RegionTable) : Option (CachePool × RegionTable) :=
  match p.entries.entries.argmin fun e => e.2.lastAccess with
  | none => none
  | some ⟨key, entry⟩ =>
    some
      ({ p with
          entries := p.entries.erase key
          usedBytes := p.usedBytes - entry.len
          allocator := p.allocator.free entry.poolOffset entry.len },
        if p.hasRegionTable then table.setState entry.regionId .invalid else table)

/-- The loop of `insert`: evicts until `len` bytes fit; false when nothing is left
to evict. Every round removes an entry, so one more than there are suffices. -/
def makeRoom (len : UInt64) : ℕ → CachePool → RegionTable → CachePool × RegionTable × Bool
  | 0, p, table => (p, table, false)
  | fuel + 1, p, table =>
    if p.usedBytes + len > p.maxBytes then
      match p.evictLru table with
      | none => (p, table, false)
      | some (p, table) => makeRoom len fuel p table
    else (p, table, true)

def insert (table : RegionTable) (now : Instant) (regionId : RegionId) (len epoch : UInt64) :
    CachePool × RegionTable × Except String CacheEntry :=
  match makeRoom len (p.entries.entries.length + 1) p table with
  | (p, table, false) => (p, table, .error "cache pool full, cannot evict enough space")
  | (p, table, true) =>
    match p.allocator.alloc len with
    | none => (p, table, .error "sub-allocator exhausted")
    | some (allocator, poolOffset) =>
      let entry : CacheEntry := ⟨regionId, poolOffset, len, epoch, now⟩
      ({ p with
          allocator
          usedBytes := p.usedBytes + len
          entries := p.entries.insert regionId entry },
        table, .ok entry)

def updateEpoch (now : Instant) (regionId : RegionId) (epoch : UInt64) : CachePool × Bool :=
  ({ p with
      entries := Maps.modify p.entries regionId fun e => { e with epoch, lastAccess := now } },
    (p.entries.lookup regionId).isSome)

/-! ## Where the copies lie -/

/-- The place of each cached region: its pool offset and length. -/
def ranges (regionId : RegionId) : Option (ℕ × ℕ) :=
  (p.entries.lookup regionId).map fun e => (e.poolOffset.toNat, e.len.toNat)

/-- Nothing is allocated and no copy moves; some may go. -/
structure Shrinks (p p' : CachePool) : Prop where
  allocator : p'.allocator = p.allocator
  ranges : ∀ id r, p'.ranges id = some r → p.ranges id = some r

variable {p}

theorem Shrinks.refl : Shrinks p p := ⟨rfl, fun _ _ h => h⟩

theorem Shrinks.trans {p₁ p₂ p₃ : CachePool} (h : Shrinks p₁ p₂) (k : Shrinks p₂ p₃) :
    Shrinks p₁ p₃ :=
  ⟨k.allocator.trans h.allocator, fun id r hr => h.ranges id r (k.ranges id r hr)⟩

variable {p' : CachePool} {table table' : RegionTable} {len : UInt64}

theorem shrinks_of_erase {regionId : RegionId} (hentries : p'.entries = p.entries.erase regionId)
    (hallocator : p'.allocator = p.allocator) :
    Shrinks p p' := by
  refine ⟨hallocator, ?_⟩
  intro id r hr
  simp only [ranges, hentries, Option.map_eq_some_iff] at hr ⊢
  obtain ⟨e, he, rfl⟩ := hr
  exact ⟨e, Maps.lookup_erase_of_some he, rfl⟩

theorem shrinks_lookup (now : Instant) (regionId : RegionId) :
    Shrinks p (p.lookup now regionId).1 := by
  refine ⟨rfl, ?_⟩
  intro id r hr
  by_cases hid : id = regionId
  · subst hid
    simpa [ranges, lookup, Maps.lookup_modify] using hr
  · simpa [ranges, lookup, Maps.lookup_modify_ne hid] using hr

theorem shrinks_remove (regionId : RegionId) : Shrinks p (p.remove regionId).1 := by
  unfold remove
  split
  · exact Shrinks.refl
  · exact shrinks_of_erase rfl rfl

theorem shrinks_evictLru (h : p.evictLru table = some (p', table')) : Shrinks p p' := by
  unfold evictLru at h
  split at h
  · cases h
  · cases h
    exact shrinks_of_erase rfl rfl

theorem makeRoom_of_le {table : RegionTable} (h : p.usedBytes + len ≤ p.maxBytes) (fuel : ℕ) :
    makeRoom len (fuel + 1) p table = (p, table, true) := if_neg (UInt64.not_lt.mpr h)

theorem makeRoom_of_evictLru (h : p.maxBytes < p.usedBytes + len)
    (hevict : p.evictLru table = some (p', table')) (fuel : ℕ) :
    makeRoom len (fuel + 1) p table = makeRoom len fuel p' table' := by
  rw [makeRoom, if_pos h, hevict]

theorem makeRoom_of_empty {table : RegionTable} (h : p.maxBytes < p.usedBytes + len)
    (hempty : p.entries.entries = []) (fuel : ℕ) :
    makeRoom len (fuel + 1) p table = (p, table, false) := by
  have hevict : p.evictLru table = none := by
    simp only [evictLru, hempty, List.argmin_nil]
  rw [makeRoom, if_pos h, hevict]

theorem makeRoom_keeps {I : CachePool → RegionTable → Prop}
    (hevict : ∀ p table p' table', I p table → p.evictLru table = some (p', table') → I p' table')
    (len : UInt64) (fuel : ℕ) {p : CachePool} {table : RegionTable} (h : I p table) :
    I (makeRoom len fuel p table).1 (makeRoom len fuel p table).2.1 := by
  induction fuel generalizing p table with
  | zero => exact h
  | succ fuel ih =>
    unfold makeRoom
    split_ifs
    · split
      · exact h
      · rename_i p' table' hevicted
        exact ih (hevict p table p' table' h hevicted)
    · exact h

theorem makeRoom_fits (len : UInt64) (fuel : ℕ) (p : CachePool) (table : RegionTable)
    (h : (makeRoom len fuel p table).2.2 = true) :
    (makeRoom len fuel p table).1.usedBytes + len ≤ (makeRoom len fuel p table).1.maxBytes := by
  induction fuel generalizing p table with
  | zero => cases h
  | succ fuel ih =>
    unfold makeRoom at h ⊢
    split_ifs at h ⊢ with hfull
    · split at h
      · cases h
      · exact ih _ _ h
    · exact UInt64.not_lt.mp hfull

theorem shrinks_makeRoom (len : UInt64) (fuel : ℕ) (p : CachePool) (table : RegionTable) :
    Shrinks p (makeRoom len fuel p table).1 :=
  makeRoom_keeps (I := fun p' _ => Shrinks p p')
    (fun _ _ _ _ h hevict => h.trans (shrinks_evictLru hevict)) len fuel .refl

/-! ## What evictions do to the region table -/

theorem sameRegions_evictLru (h : p.evictLru table = some (p', table')) :
    table.SameRegions table' := by
  unfold evictLru at h
  split at h
  · cases h
  · cases h
    split_ifs
    · exact RegionTable.sameRegions_setState (by simp)
    · exact RegionTable.SameRegions.refl

theorem sameRegions_makeRoom (len : UInt64) (fuel : ℕ) (p : CachePool) (table : RegionTable) :
    table.SameRegions (makeRoom len fuel p table).2.1 :=
  makeRoom_keeps (I := fun _ table' => table.SameRegions table')
    (fun _ _ _ _ h hevict => h.trans (sameRegions_evictLru hevict)) len fuel .refl

/-- An insertion evicts first. Then it fails, or stores the copy in the bytes that the
allocator gives it. -/
theorem insert_inv (p : CachePool) (table : RegionTable) (now : Instant) (regionId : RegionId)
    (len epoch : UInt64) :
    let room := makeRoom len (p.entries.entries.length + 1) p table
    ((room.2.2 = true → room.1.allocator.alloc len = none) ∧
      ∃ message, p.insert table now regionId len epoch = (room.1, room.2.1, .error message)) ∨
    (room.2.2 = true ∧ ∃ allocator poolOffset,
      room.1.allocator.alloc len = some (allocator, poolOffset) ∧
      p.insert table now regionId len epoch =
        ({ room.1 with
            allocator
            usedBytes := room.1.usedBytes + len
            entries := room.1.entries.insert regionId ⟨regionId, poolOffset, len, epoch, now⟩ },
          room.2.1, .ok ⟨regionId, poolOffset, len, epoch, now⟩)) := by
  unfold insert
  generalize makeRoom len (p.entries.entries.length + 1) p table = room
  obtain ⟨p₁, table₁, fits⟩ := room
  cases fits with
  | false =>
    refine Or.inl ⟨?_, _, rfl⟩
    intro h
    cases h
  | true =>
    dsimp only
    cases halloc : p₁.allocator.alloc len with
    | none => exact Or.inl ⟨fun _ => rfl, _, rfl⟩
    | some taken => exact Or.inr ⟨rfl, taken.1, taken.2, rfl, rfl⟩

theorem sameRegions_insert (table : RegionTable) (now : Instant) (regionId : RegionId)
    (len epoch : UInt64) : table.SameRegions (p.insert table now regionId len epoch).2.1 := by
  have hroom := sameRegions_makeRoom len (p.entries.entries.length + 1) p table
  rcases p.insert_inv table now regionId len epoch with
    ⟨-, message, hinsert⟩ | ⟨-, allocator, poolOffset, -, hinsert⟩
  · rw [hinsert]
    exact hroom
  · rw [hinsert]
    exact hroom

/-! ## Insertion -/

/-- An insertion that takes the range at the allocator's cursor. -/
structure Inserted (p p' : CachePool) (regionId : RegionId) (len : UInt64) (entry : CacheEntry) :
    Prop where
  fits : p.allocator.allocated + len ≤ p.allocator.totalLen
  poolOffset : entry.poolOffset = p.allocator.baseOffset + p.allocator.allocated
  allocator : p'.allocator = { p.allocator with allocated := p.allocator.allocated + len }
  ranges_self : p'.ranges regionId = some (entry.poolOffset.toNat, len.toNat)
  ranges_ne : ∀ id r, id ≠ regionId → p'.ranges id = some r → p.ranges id = some r

theorem insert_cases (table : RegionTable) (now : Instant) (regionId : RegionId)
    (len epoch : UInt64) :
    ((∃ e, (p.insert table now regionId len epoch).2.2 = .error e) ∧
      Shrinks p (p.insert table now regionId len epoch).1) ∨
    ∃ entry, (p.insert table now regionId len epoch).2.2 = .ok entry ∧
      Inserted p (p.insert table now regionId len epoch).1 regionId len entry := by
  have hroom := shrinks_makeRoom len (p.entries.entries.length + 1) p table
  rcases p.insert_inv table now regionId len epoch with
    ⟨-, message, hinsert⟩ | ⟨-, allocator, poolOffset, halloc, hinsert⟩
  · rw [hinsert]
    exact Or.inl ⟨⟨message, rfl⟩, hroom⟩
  · obtain ⟨hfits, hallocator, hoffset⟩ := SubAllocator.alloc_eq_some halloc
    rw [hroom.allocator] at hfits hallocator hoffset
    rw [hinsert]
    refine Or.inr ⟨_, rfl, hfits, hoffset, hallocator, ?_, ?_⟩
    · simp only [ranges]
      rw [AList.lookup_insert]
      rfl
    · intro id r hid hr
      apply hroom.ranges id r
      simp only [ranges] at hr ⊢
      rwa [AList.lookup_insert_ne hid] at hr

end CachePool
end UniBus.Managed
