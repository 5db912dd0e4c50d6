import UniBus.Foundations.Checked
import UniBus.Foundations.Recency
import UniBus.Foundations.Runs
import UniBus.Managed.CachePool

/-!
# What a cache pool accounts for

The byte counter of a pool, its entries and its allocator are changed one after
another by every operation. The counter should be the sum of the cached lengths,
stay within the capacity, and the copies should lie apart from each other in the
allocator's range. An insertion over a copy that is still cached adds the new
length to the counter and leaves the old one in it.
-/
namespace UniBus.Managed

open Ranges (Packed span)

inductive PoolCall
  | insert (now : Instant) (regionId : RegionId) (len epoch : UInt64)
  | remove (regionId : RegionId)
  | evictLru
  | lookup (now : Instant) (regionId : RegionId)
  | updateEpoch (now : Instant) (regionId : RegionId) (epoch : UInt64)
  deriving DecidableEq

def PoolCall.len : PoolCall → ℕ
  | .insert _ _ len _ => len.toNat
  | _ => 0

namespace CachePool

/-- The bytes of the copies that are evicted before that of a region: the older ones, and
those of the same age that are found first. -/
def olderBytes (p : CachePool) (regionId : RegionId) (entry : CacheEntry) : ℕ :=
  Recency.weightBefore (fun e => e.2.lastAccess) (fun e => e.2.len.toNat) regionId
    entry.lastAccess p.entries.entries

/-- The length of the copy that an insertion overwrites: the region is cached, evicting the
copies before it makes room, and the allocator has the bytes. -/
def replaced (p : CachePool) (regionId : RegionId) (len : UInt64) : ℕ :=
  match p.entries.lookup regionId with
  | none => 0
  | some entry =>
    if p.usedBytes.toNat + len.toNat ≤ p.maxBytes.toNat + p.olderBytes regionId entry ∧
        p.allocator.allocated.toNat + len.toNat ≤ p.allocator.totalLen.toNat then
      entry.len.toNat
    else 0

/-- The log records what the insertions overwrite. -/
def step (s : CachePool × RegionTable) : PoolCall → (CachePool × RegionTable) × List ℕ
  | .insert now regionId len epoch =>
    let inserted := s.1.insert s.2 now regionId len epoch
    ((inserted.1, inserted.2.1), [s.1.replaced regionId len])
  | .remove regionId => (((s.1.remove regionId).1, s.2), [])
  | .evictLru =>
    match s.1.evictLru s.2 with
    | none => (s, [])
    | some evicted => (evicted, [])
  | .lookup now regionId => (((s.1.lookup now regionId).1, s.2), [])
  | .updateEpoch now regionId epoch => (((s.1.updateEpoch now regionId epoch).1, s.2), [])

def cachedBytes (p : CachePool) : ℕ := Maps.total (fun e => e.len.toNat) p.entries

/-- The counter is right and within the capacity, and the copies lie apart in the
range of the allocator. -/
structure Accounted (a : SubAllocator) (p : CachePool) : Prop where
  used : p.usedBytes.toNat = p.cachedBytes
  bounded : p.usedBytes ≤ p.maxBytes
  disjoint : ∀ id id' r r', id ≠ id' → p.ranges id = some r → p.ranges id' = some r' →
    Disjoint (span r) (span r')
  inside : ∀ id r, p.ranges id = some r → a.baseOffset.toNat ≤ r.1 ∧
    r.1 + r.2 ≤ a.baseOffset.toNat + a.totalLen.toNat

/-! ## What every operation keeps -/

/-- The counter is off by `drift`; at most `spent` bytes have been taken from the
allocator, and the copies lie below its cursor. -/
structure Tracked (a : SubAllocator) (spent drift : ℕ) (p : CachePool) : Prop where
  baseOffset : p.allocator.baseOffset = a.baseOffset
  totalLen : p.allocator.totalLen = a.totalLen
  allocated : p.allocator.allocated.toNat ≤ spent
  used : p.usedBytes.toNat = p.cachedBytes + drift
  used_le : p.usedBytes.toNat ≤ spent
  bounded : p.usedBytes ≤ p.maxBytes
  packed : Packed p.ranges (a.baseOffset.toNat + p.allocator.allocated.toNat)
  inside : ∀ id r, p.ranges id = some r → a.baseOffset.toNat ≤ r.1 ∧
    r.1 + r.2 ≤ a.baseOffset.toNat + a.totalLen.toNat

/-- What the evictions of an insertion leave of the region, if the insertion succeeds. -/
def overwritten (p : CachePool) (table : RegionTable) (regionId : RegionId) (len : UInt64) : ℕ :=
  match makeRoom len (p.entries.entries.length + 1) p table with
  | (_, _, false) => 0
  | (p, _, true) =>
    match p.allocator.alloc len with
    | none => 0
    | some _ => ((p.entries.lookup regionId).map fun e => e.len.toNat).getD 0

namespace Tracked

variable {a : SubAllocator} {spent drift : ℕ} {p p' : CachePool}

section
variable (h : Tracked a spent drift p)
include h

theorem accounted_iff : Accounted a p ↔ drift = 0 := by
  constructor
  · intro haccounted
    have hused := h.used
    rw [haccounted.used] at hused
    omega
  · intro hdrift
    refine ⟨?_, h.bounded, h.packed.disjoint, h.inside⟩
    rw [h.used, hdrift, Nat.add_zero]

theorem len_le_used {regionId : RegionId} {entry : CacheEntry}
    (hentry : p.entries.lookup regionId = some entry) : entry.len ≤ p.usedBytes := by
  have hcached : p.cachedBytes = entry.len.toNat +
      Maps.total (fun e => e.len.toNat) (p.entries.erase regionId) := Maps.total_erase hentry
  rw [UInt64.le_iff_toNat_le, h.used, hcached]
  omega

theorem erase {regionId : RegionId} {entry : CacheEntry}
    (hentry : p.entries.lookup regionId = some entry) :
    Tracked a spent drift { p with
      entries := p.entries.erase regionId
      usedBytes := p.usedBytes - entry.len
      allocator := p.allocator.free entry.poolOffset entry.len } := by
  have hshrinks : Shrinks p { p with
      entries := p.entries.erase regionId
      usedBytes := p.usedBytes - entry.len
      allocator := p.allocator.free entry.poolOffset entry.len } := shrinks_of_erase rfl rfl
  have hcached : p.cachedBytes = entry.len.toNat +
      Maps.total (fun e => e.len.toNat) (p.entries.erase regionId) := Maps.total_erase hentry
  have hle := h.len_le_used hentry
  have hused : (p.usedBytes - entry.len).toNat = p.usedBytes.toNat - entry.len.toNat :=
    UInt64.toNat_sub_of_le _ _ hle
  have husedBytes := h.used
  have hspent := h.used_le
  refine ⟨h.baseOffset, h.totalLen, h.allocated, ?_, ?_, ?_, ?_, ?_⟩
  · show (p.usedBytes - entry.len).toNat = Maps.total _ (p.entries.erase regionId) + drift
    omega
  · show (p.usedBytes - entry.len).toNat ≤ spent
    omega
  · show p.usedBytes - entry.len ≤ p.maxBytes
    have hbounded := UInt64.le_iff_toNat_le.mp h.bounded
    rw [UInt64.le_iff_toNat_le]
    omega
  · exact h.packed.of_le hshrinks.ranges
  · exact fun id r hr => h.inside id r (hshrinks.ranges id r hr)

theorem modify (regionId : RegionId) {f : CacheEntry → CacheEntry} (hlen : ∀ e, (f e).len = e.len)
    (hoffset : ∀ e, (f e).poolOffset = e.poolOffset) :
    Tracked a spent drift { p with entries := Maps.modify p.entries regionId f } := by
  have hranges : ({ p with entries := Maps.modify p.entries regionId f } : CachePool).ranges =
      p.ranges := by
    funext id
    by_cases hid : id = regionId
    · subst hid
      simp [ranges, Maps.lookup_modify, Function.comp_def, hlen, hoffset]
    · simp [ranges, Maps.lookup_modify_ne hid]
  refine ⟨h.baseOffset, h.totalLen, h.allocated, ?_, h.used_le, h.bounded, ?_, ?_⟩
  · have htotal : Maps.total (fun e => e.len.toNat) (Maps.modify p.entries regionId f) =
        p.cachedBytes := Maps.total_modify (fun e => by rw [hlen]) _ _
    exact h.used.trans (congrArg (· + drift) htotal.symm)
  · rw [hranges]
    exact h.packed
  · rw [hranges]
    exact h.inside

theorem evictLru {table table' : RegionTable} (hevict : p.evictLru table = some (p', table')) :
    Tracked a spent drift p' := by
  unfold CachePool.evictLru at hevict
  split at hevict
  · cases hevict
  · next key entry hmin =>
    cases hevict
    exact h.erase (AList.mem_lookup_iff.mpr (List.argmin_mem hmin))

end

theorem makeRoom (len : UInt64) (fuel : ℕ) (p : CachePool) (table : RegionTable)
    (h : Tracked a spent drift p) :
    Tracked a spent drift (CachePool.makeRoom len fuel p table).1 :=
  CachePool.makeRoom_keeps (I := fun p _ => Tracked a spent drift p)
    (fun _ _ _ _ h hevict => h.evictLru hevict) len fuel h

/-- One eviction takes the copy of a region, or one of those before it. -/
theorem evictLru_before (h : Tracked a spent drift p) {regionId : RegionId} {entry : CacheEntry}
    (hentry : p.entries.lookup regionId = some entry) (table : RegionTable) :
    ∃ p' table', p.evictLru table = some (p', table') ∧ p'.maxBytes = p.maxBytes ∧
      p'.entries.entries.length + 1 = p.entries.entries.length ∧
      (p.olderBytes regionId entry = 0 ∧ p'.entries.lookup regionId = none ∨
        p'.entries.lookup regionId = some entry ∧
          ∃ n, p.olderBytes regionId entry = n + p'.olderBytes regionId entry ∧
            p.usedBytes.toNat = p'.usedBytes.toNat + n) := by
  have hmem : ⟨regionId, entry⟩ ∈ p.entries.entries := AList.mem_lookup_iff.mp hentry
  cases hmin : p.entries.entries.argmin fun e => e.2.lastAccess with
  | none =>
    rw [List.argmin_eq_none] at hmin
    rw [hmin] at hmem
    cases hmem
  | some oldest =>
    obtain ⟨key, old⟩ := oldest
    have hold : p.entries.lookup key = some old :=
      AList.mem_lookup_iff.mpr (List.argmin_mem hmin)
    have hlength := Maps.length_erase_add_one (AList.mem_keys.mp (AList.lookup_isSome.mp
      (hold ▸ rfl : (p.entries.lookup key).isSome = true)))
    simp only [CachePool.evictLru, hmin]
    refine ⟨_, _, rfl, rfl, hlength, ?_⟩
    by_cases hkey : key = regionId
    · subst hkey
      obtain rfl : old = entry := Option.some.inj (hold.symm.trans hentry)
      exact .inl ⟨Recency.weightBefore_argmin p.entries.nodupKeys hmin, AList.lookup_erase _ _⟩
    · refine .inr ⟨(AList.lookup_erase_ne (Ne.symm hkey)).trans hentry, old.len.toNat, ?_, ?_⟩
      · exact Recency.weightBefore_kerase p.entries.nodupKeys hmem hmin hkey
      · have hle := h.len_le_used hold
        have hnat := UInt64.le_iff_toNat_le.mp hle
        rw [UInt64.toNat_sub_of_le _ _ hle]
        omega

theorem makeRoom_of_none {regionId : RegionId} (hnone : p.entries.lookup regionId = none)
    (len : UInt64) (fuel : ℕ) (table : RegionTable) :
    (CachePool.makeRoom len fuel p table).1.entries.lookup regionId = none := by
  have hranges := (shrinks_makeRoom len fuel p table).ranges regionId
  cases hleft : (CachePool.makeRoom len fuel p table).1.entries.lookup regionId with
  | none => rfl
  | some e =>
    have hsome := hranges _ (congrArg (Option.map _) hleft)
    simp [ranges, hnone] at hsome

section
variable (h : Tracked a spent drift p)
include h

/-- The copy of a region outlives the evictions just in case those before it make room. -/
theorem makeRoom_leaves {len : UInt64} (hfits : spent + len.toNat < 2 ^ 64) {regionId : RegionId}
    {entry : CacheEntry} (hentry : p.entries.lookup regionId = some entry) {fuel : ℕ}
    (hfuel : p.entries.entries.length < fuel) (table : RegionTable) :
    let room := CachePool.makeRoom len fuel p table
    if p.usedBytes.toNat + len.toNat ≤ p.maxBytes.toNat + p.olderBytes regionId entry then
      room.2.2 = true ∧ room.1.entries.lookup regionId = some entry
    else room.1.entries.lookup regionId = none := by
  induction fuel generalizing p table with
  | zero => omega
  | succ fuel ih =>
    intro room
    have hspent := h.used_le
    have hsum : (p.usedBytes + len).toNat = p.usedBytes.toNat + len.toNat :=
      Checked.toNat_addU64 (by omega)
    by_cases hroom : p.usedBytes + len ≤ p.maxBytes
    · have hle := UInt64.le_iff_toNat_le.mp hroom
      have hstop : room = (p, table, true) := makeRoom_of_le hroom fuel
      rw [if_pos (by omega), hstop]
      exact ⟨rfl, hentry⟩
    · have hfull : p.maxBytes < p.usedBytes + len := UInt64.not_le.mp hroom
      have hlt := UInt64.lt_iff_toNat_lt.mp hfull
      obtain ⟨p', table', hevict, hmax, hlength, hbefore⟩ := h.evictLru_before hentry table
      have hnext : room = CachePool.makeRoom len fuel p' table' :=
        makeRoom_of_evictLru hfull hevict fuel
      rw [hnext]
      rcases hbefore with ⟨hnone, hgone⟩ | ⟨hkept, n, holder, hused⟩
      · rw [if_neg (by omega)]
        exact makeRoom_of_none hgone len fuel table'
      · have hleaves := ih (h.evictLru hevict) hkept (by omega) table'
        rw [hmax] at hleaves
        have hiff : p.usedBytes.toNat + len.toNat ≤
            p.maxBytes.toNat + p.olderBytes regionId entry ↔
            p'.usedBytes.toNat + len.toNat ≤
              p.maxBytes.toNat + p'.olderBytes regionId entry := by omega
        simpa only [hiff] using hleaves

theorem replaced_eq_overwritten {len : UInt64} (hfits : spent + len.toNat < 2 ^ 64)
    (table : RegionTable) (regionId : RegionId) :
    p.replaced regionId len = p.overwritten table regionId len := by
  have hallocator := (shrinks_makeRoom len (p.entries.entries.length + 1) p table).allocator
  have hallocated := h.allocated
  have hcursor : (p.allocator.allocated + len).toNat =
      p.allocator.allocated.toNat + len.toNat := Checked.toNat_addU64 (by omega)
  have hspace : p.allocator.alloc len = none ↔
      ¬p.allocator.allocated.toNat + len.toNat ≤ p.allocator.totalLen.toNat := by
    rw [← hcursor, SubAllocator.alloc]
    split_ifs with hlarge
    · exact iff_of_true rfl (Nat.not_le.mpr (UInt64.lt_iff_toNat_lt.mp hlarge))
    · refine iff_of_false (by simp) (not_not.mpr ?_)
      exact UInt64.le_iff_toNat_le.mp (UInt64.not_lt.mp hlarge)
  unfold replaced overwritten
  cases hentry : p.entries.lookup regionId with
  | none =>
    have hnone := makeRoom_of_none hentry len (p.entries.entries.length + 1) table
    generalize CachePool.makeRoom len (p.entries.entries.length + 1) p table = room at *
    obtain ⟨q, table', fits⟩ := room
    cases fits with
    | false => rfl
    | true =>
      dsimp only at hnone ⊢
      rw [hnone]
      cases q.allocator.alloc len <;> rfl
  | some entry =>
    have hleaves := h.makeRoom_leaves hfits hentry (Nat.lt_succ_self _) table
    generalize CachePool.makeRoom len (p.entries.entries.length + 1) p table = room at *
    obtain ⟨q, table', fits⟩ := room
    dsimp only at hallocator hleaves ⊢
    split_ifs at hleaves with hroom
    · obtain ⟨rfl, hleft⟩ := hleaves
      dsimp only
      rw [hallocator, hleft]
      cases halloc : p.allocator.alloc len with
      | none => exact if_neg fun hboth => hspace.mp halloc hboth.2
      | some taken =>
        refine if_pos ⟨hroom, ?_⟩
        by_contra hlarge
        rw [hspace.mpr hlarge] at halloc
        cases halloc
    · rw [if_neg fun hboth => hroom hboth.1]
      cases fits with
      | false => rfl
      | true =>
        dsimp only
        rw [hleaves]
        cases q.allocator.alloc len <;> rfl

/-- A new copy is stored at the cursor of the allocator. -/
theorem store (hrange : a.baseOffset.toNat + a.totalLen.toNat < 2 ^ 64) {regionId : RegionId}
    {len poolOffset epoch : UInt64} {now : Instant} {allocator : SubAllocator}
    (hfits : spent + len.toNat < 2 ^ 64) (hroom : p.usedBytes + len ≤ p.maxBytes)
    (halloc : p.allocator.alloc len = some (allocator, poolOffset)) :
    Tracked a (spent + len.toNat)
      (drift + ((p.entries.lookup regionId).map fun e => e.len.toNat).getD 0)
      { p with
        allocator
        usedBytes := p.usedBytes + len
        entries := p.entries.insert regionId ⟨regionId, poolOffset, len, epoch, now⟩ } := by
  obtain ⟨hspace, rfl, hoffset⟩ := SubAllocator.alloc_eq_some halloc
  have hspent := h.used_le
  have hallocated := h.allocated
  have hbase := congrArg UInt64.toNat h.baseOffset
  have htotal := congrArg UInt64.toNat h.totalLen
  have hused : (p.usedBytes + len).toNat = p.usedBytes.toNat + len.toNat :=
    Checked.toNat_addU64 (by omega)
  have hcursor : (p.allocator.allocated + len).toNat =
      p.allocator.allocated.toNat + len.toNat := Checked.toNat_addU64 (by omega)
  rw [UInt64.le_iff_toNat_le, hcursor, htotal] at hspace
  have hstart : poolOffset.toNat = a.baseOffset.toNat + p.allocator.allocated.toNat := by
    rw [hoffset, UInt64.toNat_add, hbase]
    omega
  let p' : CachePool := { p with
    allocator := { p.allocator with allocated := p.allocator.allocated + len }
    usedBytes := p.usedBytes + len
    entries := p.entries.insert regionId ⟨regionId, poolOffset, len, epoch, now⟩ }
  have hself : p'.ranges regionId =
      some (a.baseOffset.toNat + p.allocator.allocated.toNat, len.toNat) := by
    simp only [ranges, p']
    rw [AList.lookup_insert, ← hstart]
    rfl
  have hother : ∀ id r, id ≠ regionId → p'.ranges id = some r → p.ranges id = some r := by
    intro id r hid hr
    simp only [ranges, p'] at hr
    rwa [AList.lookup_insert_ne hid] at hr
  refine ⟨h.baseOffset, h.totalLen, ?_, ?_, ?_, hroom, ?_, ?_⟩
  · show (p.allocator.allocated + len).toNat ≤ spent + len.toNat
    omega
  · -- the length of the copy that was there stays in the counter
    have hcached : p'.cachedBytes +
        ((p.entries.lookup regionId).map fun e => e.len.toNat).getD 0 =
          len.toNat + p.cachedBytes := Maps.total_insert_add _ _ _ _
    have hwas := h.used
    show (p.usedBytes + len).toNat = p'.cachedBytes + _
    omega
  · show (p.usedBytes + len).toNat ≤ spent + len.toNat
    omega
  · show Packed p'.ranges (a.baseOffset.toNat + (p.allocator.allocated + len).toNat)
    rw [hcursor, ← Nat.add_assoc]
    exact h.packed.take regionId len.toNat hother hself
  · intro id r hr
    by_cases hid : id = regionId
    · subst hid
      obtain rfl := Option.some.inj (hself.symm.trans hr)
      exact ⟨Nat.le_add_right _ _, by omega⟩
    · exact h.inside id r (hother id r hid hr)

theorem raise {spent' : ℕ} (hle : spent ≤ spent') :
    Tracked a spent' drift p :=
  { h with allocated := h.allocated.trans hle, used_le := h.used_le.trans hle }

/-- An insertion that fails takes nothing from the allocator, and one that succeeds
takes its own length. -/
theorem insert_outcome (hrange : a.baseOffset.toNat + a.totalLen.toNat < 2 ^ 64)
    (table : RegionTable) (now : Instant) (regionId : RegionId) (len epoch : UInt64) :
    ((∃ e, (p.insert table now regionId len epoch).2.2 = .error e) ∧
      p.overwritten table regionId len = 0 ∧
      Tracked a spent drift (p.insert table now regionId len epoch).1) ∨
    ∃ entry, (p.insert table now regionId len epoch).2.2 = .ok entry ∧ entry.len = len ∧
      (spent + len.toNat < 2 ^ 64 →
        Tracked a (spent + len.toNat) (drift + p.overwritten table regionId len)
          (p.insert table now regionId len epoch).1) := by
  have htracked := makeRoom len (p.entries.entries.length + 1) p table h
  have hroom := CachePool.makeRoom_fits len (p.entries.entries.length + 1) p table
  unfold CachePool.insert overwritten
  generalize CachePool.makeRoom len (p.entries.entries.length + 1) p table = room at htracked hroom
  obtain ⟨p₁, table₁, fits⟩ := room
  cases fits with
  | false => exact Or.inl ⟨⟨_, rfl⟩, rfl, htracked⟩
  | true =>
    dsimp only at htracked hroom ⊢
    cases halloc : p₁.allocator.alloc len with
    | none => exact Or.inl ⟨⟨_, rfl⟩, rfl, htracked⟩
    | some taken =>
      refine Or.inr ⟨_, rfl, rfl, ?_⟩
      intro hfits
      exact htracked.store hrange hfits (hroom rfl) halloc

theorem insert (hrange : a.baseOffset.toNat + a.totalLen.toNat < 2 ^ 64) (table : RegionTable)
    (now : Instant) (regionId : RegionId) {len : UInt64} (epoch : UInt64)
    (hfits : spent + len.toNat < 2 ^ 64) :
    Tracked a (spent + len.toNat) (drift + p.replaced regionId len)
      (p.insert table now regionId len epoch).1 := by
  rw [h.replaced_eq_overwritten hfits table]
  rcases h.insert_outcome hrange table now regionId len epoch with
    ⟨-, hnone, hsame⟩ | ⟨entry, -, -, hstored⟩
  · rw [hnone]
    exact hsame.raise (Nat.le_add_right _ _)
  · exact hstored hfits

end

/-- Every call keeps the pool tracked; only an insertion over a cached copy makes
the counter drift. -/
theorem step {s : CachePool × RegionTable} (h : Tracked a spent drift s.1)
    (hrange : a.baseOffset.toNat + a.totalLen.toNat < 2 ^ 64) (call : PoolCall)
    (hfits : spent + call.len < 2 ^ 64) :
    Tracked a (spent + call.len) (drift + (CachePool.step s call).2.sum)
      (CachePool.step s call).1.1 := by
  cases call with
  | insert now regionId len epoch =>
    simp only [CachePool.step, List.sum_singleton]
    exact h.insert hrange s.2 now regionId epoch hfits
  | remove regionId =>
    simp only [CachePool.step, CachePool.remove]
    split
    · exact h
    · next entry hentry => exact h.erase hentry
  | evictLru =>
    simp only [CachePool.step]
    split
    · exact h
    · next evicted hevict => exact h.evictLru hevict
  | lookup now regionId => exact h.modify regionId (fun _ => rfl) fun _ => rfl
  | updateEpoch now regionId epoch => exact h.modify regionId (fun _ => rfl) fun _ => rfl

theorem run {s : CachePool × RegionTable} (h : Tracked a spent drift s.1)
    (hrange : a.baseOffset.toNat + a.totalLen.toNat < 2 ^ 64) {calls : List PoolCall}
    (hfits : spent + (calls.map PoolCall.len).sum < 2 ^ 64) :
    Tracked a (spent + (calls.map PoolCall.len).sum)
      (drift + (Runs.run CachePool.step s calls).2.sum) (Runs.run CachePool.step s calls).1.1 := by
  induction calls generalizing s spent drift with
  | nil => exact h
  | cons call calls ih =>
    rw [List.map_cons, List.sum_cons] at hfits ⊢
    have hfirst := h.step hrange call (by omega)
    have hrest := ih hfirst (by omega)
    rw [Runs.run_cons, List.sum_append, ← Nat.add_assoc, ← Nat.add_assoc]
    exact hrest

end Tracked

/-! ## Whole runs -/

def empty (a : SubAllocator) (maxBytes : UInt64) (hasRegionTable : Bool) : CachePool :=
  ⟨∅, a, maxBytes, 0, hasRegionTable⟩

theorem tracked_empty (a : SubAllocator) (maxBytes : UInt64) (hasRegionTable : Bool) :
    Tracked a a.allocated.toNat 0 (empty a maxBytes hasRegionTable) where
  baseOffset := rfl
  totalLen := rfl
  allocated := Nat.le_refl _
  used := rfl
  used_le := Nat.zero_le _
  bounded := UInt64.zero_le
  packed := Ranges.packed_empty
  inside := by
    intro id r hr
    cases hr

/-- In every run the accounting is right exactly while no insertion has
overwritten a copy of positive length. -/
theorem accounted_iff_nothing_replaced (a : SubAllocator)
    (hrange : a.baseOffset.toNat + a.totalLen.toNat < 2 ^ 64) (maxBytes : UInt64)
    (hasRegionTable : Bool) (table : RegionTable) (calls : List PoolCall)
    (hfits : a.allocated.toNat + (calls.map PoolCall.len).sum < 2 ^ 64) :
    Accounted a (Runs.run step (empty a maxBytes hasRegionTable, table) calls).1.1 ↔
      ∀ n ∈ (Runs.run step (empty a maxBytes hasRegionTable, table) calls).2, n = 0 := by
  have hstart : Tracked a a.allocated.toNat 0 (empty a maxBytes hasRegionTable, table).1 :=
    tracked_empty a maxBytes hasRegionTable
  have htracked := hstart.run hrange hfits
  rw [htracked.accounted_iff, Nat.zero_add, List.sum_eq_zero_iff_forall_eq_nat]

/-- Two regions of 8 bytes in a pool of 16 bytes. -/
def twoCopies : List PoolCall := [.insert 0 ⟨1⟩ 8 0, .insert 1 ⟨2⟩ 8 0, .lookup 2 ⟨1⟩]

theorem accounted_iff_nothing_replaced_two :
    Accounted (.new 0 64) (Runs.run step (empty (.new 0 64) 16 true, .new) twoCopies).1.1 :=
  (accounted_iff_nothing_replaced (.new 0 64) (by decide) 16 true .new twoCopies
    (by decide)).mpr (by decide)

/-- A region of 8 bytes is fetched again while it is cached: the pool holds 8
bytes and counts 16. -/
theorem reinserted_copy_counted_twice :
    let p := (Runs.run step (empty (.new 0 64) 16 true, .new)
      [.insert 0 ⟨1⟩ 8 0, .insert 1 ⟨1⟩ 8 0]).1.1
    p.usedBytes = 16 ∧ p.cachedBytes = 8 ∧ ¬ Accounted (.new 0 64) p := by
  refine ⟨rfl, rfl, ?_⟩
  intro h
  exact absurd h.used (by decide)

end CachePool
end UniBus.Managed
