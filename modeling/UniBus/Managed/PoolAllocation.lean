import UniBus.Managed.PoolAccounting
import UniBus.Managed.Storage

/-!
# What the sub-allocator hands out

Offsets of the cache pool come from a bump allocator whose additions wrap. A request
that does not wrap is answered with a range of the pool that was never handed out
before; one that wraps and is granted leaves the pool and moves the cursor back.
Nothing is given back, so a pool works only until its length has been handed out.
-/
namespace UniBus.Managed

open Ranges (span Logged logged_nil)

/-! ## Ranges handed out -/

namespace SubAllocator

/-- One call; the range that it hands out is logged. -/
def step (a : SubAllocator) (size : UInt64) : SubAllocator × List (ℕ × ℕ) :=
  match a.alloc size with
  | none => (a, [])
  | some (a', offset) => (a', [(offset.toNat, size.toNat)])

/-- What a request for `size` bytes can do to an allocator. -/
inductive Takes (a : SubAllocator) (size : UInt64) : SubAllocator → List (ℕ × ℕ) → Prop
  | refused : Takes a size a []
  | granted {a' : SubAllocator} {offset : UInt64} (halloc : a.alloc size = some (a', offset)) :
    Takes a size a' [(offset.toNat, size.toNat)]

/-- What is expected when the ranges `granted` are handed out after the ranges `log`. -/
structure Safe (a : SubAllocator) (log granted : List (ℕ × ℕ)) (a' : SubAllocator) : Prop where
  inside : ∀ r ∈ granted, a.baseOffset.toNat ≤ r.1 ∧
    r.1 + r.2 ≤ a.baseOffset.toNat + a.totalLen.toNat
  disjoint : ∀ r ∈ granted, ∀ earlier ∈ log, Disjoint (span earlier) (span r)
  mono : a.allocated ≤ a'.allocated
  bounded : a'.allocated ≤ a.totalLen

/-- The ranges handed out lie below the cursor, which lies in the pool. -/
structure Live (base total : UInt64) (a : SubAllocator) (log : List (ℕ × ℕ)) : Prop where
  baseOffset : a.baseOffset = base
  totalLen : a.totalLen = total
  allocated_le : a.allocated ≤ total
  handed : Logged (fun _ => ()) id log fun _ => base.toNat + a.allocated.toNat

variable {a a' : SubAllocator} {base total size : UInt64} {log granted : List (ℕ × ℕ)}

theorem takes_step (a : SubAllocator) (size : UInt64) :
    Takes a size (a.step size).1 (a.step size).2 := by
  unfold step
  cases halloc : a.alloc size with
  | none => exact .refused
  | some taken => exact .granted halloc

/-- A request is granted just in case it passes the comparison of the code, whose sum wraps. -/
theorem step_ne_nil_iff (a : SubAllocator) (size : UInt64) :
    (a.step size).2 ≠ [] ↔ a.allocated + size ≤ a.totalLen := by
  rw [step, alloc]
  split_ifs with hlarge
  · exact iff_of_false (fun h => h rfl) (UInt64.not_le.mpr hlarge)
  · exact iff_of_true (List.cons_ne_nil _ _) (UInt64.not_lt.mp hlarge)

theorem live_new (base total : UInt64) : Live base total (new base total) [] :=
  ⟨rfl, rfl, UInt64.zero_le, logged_nil⟩

theorem Live.toNat_offset (h : Live base total a log)
    (hrange : base.toNat + total.toNat < 2 ^ 64) :
    (a.baseOffset + a.allocated).toNat = base.toNat + a.allocated.toNat := by
  have hle := UInt64.le_iff_toNat_le.mp h.allocated_le
  rw [h.baseOffset]
  exact Checked.toNat_addU64 (by omega)

theorem Live.safe_iff (h : Live base total a log) (hrange : base.toNat + total.toNat < 2 ^ 64)
    (htakes : Takes a size a' granted) :
    a.Safe log granted a' ↔ (granted ≠ [] → a.allocated.toNat + size.toNat < 2 ^ 64) := by
  have hbase := congrArg UInt64.toNat h.baseOffset
  have htotal := congrArg UInt64.toNat h.totalLen
  cases htakes with
  | refused =>
    refine ⟨fun _ hne => absurd rfl hne, fun _ => ⟨by simp, by simp, UInt64.le_refl _, ?_⟩⟩
    rw [h.totalLen]
    exact h.allocated_le
  | granted halloc =>
    obtain ⟨hspace, rfl, rfl⟩ := alloc_eq_some halloc
    have hoffset := h.toNat_offset hrange
    constructor
    · intro hsafe _
      have hinside := (hsafe.inside _ (List.mem_singleton_self _)).2
      dsimp only at hinside
      omega
    · intro hunwrapped
      have hcursor := Checked.toNat_addU64 (hunwrapped (List.cons_ne_nil _ _))
      refine ⟨?_, ?_, ?_, hspace⟩
      · intro r hr
        obtain rfl := List.mem_singleton.mp hr
        rw [UInt64.le_iff_toNat_le, hcursor] at hspace
        dsimp only
        omega
      · intro r hr earlier hearlier
        obtain rfl := List.mem_singleton.mp hr
        exact h.handed.disjoint_of_le hearlier hoffset.ge
      · rw [UInt64.le_iff_toNat_le, hcursor]
        exact Nat.le_add_right _ _

theorem Live.takes (h : Live base total a log) (hrange : base.toNat + total.toNat < 2 ^ 64)
    (htakes : Takes a size a' granted)
    (hunwrapped : granted ≠ [] → a.allocated.toNat + size.toNat < 2 ^ 64) :
    Live base total a' (log ++ granted) := by
  cases htakes with
  | refused => rwa [List.append_nil]
  | granted halloc =>
    obtain ⟨hspace, rfl, rfl⟩ := alloc_eq_some halloc
    have hoffset := h.toNat_offset hrange
    have hcursor := Checked.toNat_addU64 (hunwrapped (List.cons_ne_nil _ _))
    refine ⟨h.baseOffset, h.totalLen, hspace.trans_eq h.totalLen, ?_⟩
    apply h.handed.concat (a := ((a.baseOffset + a.allocated).toNat, size.toNat)) hoffset.ge
    · intro _
      dsimp only
      omega
    · dsimp only [id]
      omega

end SubAllocator

/-! ## Copies of a daemon -/

namespace ServingDaemon

def allocator (s : ServingDaemon) : SubAllocator := s.daemon.fetchAgent.cachePool.allocator

def requested (s : ServingDaemon) : RegionInput → UInt64
  | .fetched _ i _ => ((s.waiting[i]?).map fun read => read.region.len).getD 0
  | _ => 0

def grants (s : ServingDaemon) : RegionInput → List (ℕ × ℕ)
  | .fetched now i _ =>
    match s.waiting[i]? with
    | none => []
    | some read =>
      match (s.daemon.fetchAgent.completeFetch now read.region.regionId read.region.len
          read.region.epoch).2 with
      | .error _ => []
      | .ok poolOffset => [(poolOffset.toNat, read.region.len.toNat)]
  | _ => []

/-- The bytes of a region have arrived, its insertion makes room by the byte counter, and its
length passes the comparison of the allocator, whose sum wraps. -/
def FindsRoom (s : ServingDaemon) : RegionInput → Prop
  | .fetched _ i _ => ∃ read ∈ s.waiting[i]?,
      let pool := s.daemon.fetchAgent.cachePool
      (CachePool.makeRoom read.region.len (pool.entries.entries.length + 1) pool
        s.daemon.fetchAgent.regionTable).2.2 = true ∧
      s.allocator.allocated + read.region.len ≤ s.allocator.totalLen
  | _ => False

def allocStep (s : ServingDaemon) (input : RegionInput) : ServingDaemon × List (ℕ × ℕ) :=
  ((s.step input).1, s.grants input)

theorem allocator_step_of_not_fetched (s : ServingDaemon) {input : RegionInput}
    (hinput : ∀ now i fullData, input ≠ .fetched now i fullData) :
    (s.step input).1.allocator = s.allocator := by
  cases input with
  | regionAlloc req =>
    simp only [step, allocator, Daemon.regionAlloc]
    split_ifs
    · rfl
    · split <;> rfl
  | regionFree regionId =>
    simp only [step, allocator, Daemon.regionFree]
    split_ifs
    · rfl
    · split <;> rfl
  | regionRegisterRemote info =>
    simp only [step, allocator, Daemon.regionRegisterRemote]
    split_ifs <;> rfl
  | regionInvalidate regionId newEpoch =>
    simp only [step, allocator, Daemon.regionInvalidate]
    split_ifs
    · rfl
    · exact (s.daemon.fetchAgent.shrinks_receiveInvalidate regionId newEpoch).allocator
  | verbReadVa now va offset len =>
    obtain ⟨fetchAgent, hafter, hpool⟩ := s.daemon.verbReadVa_shrinks now va offset len
    simp only [step, allocator]
    generalize s.daemon.verbReadVa now va offset len = started at hafter
    obtain ⟨daemon, result⟩ := started
    obtain rfl : daemon = _ := hafter
    cases result with
    | answered _ => exact hpool.allocator
    | fetching region => exact hpool.allocator
  | fetched now i fullData => exact absurd rfl (hinput now i fullData)
  | fetchFailed i => rfl

theorem takes_allocStep (s : ServingDaemon) (input : RegionInput) :
    s.allocator.Takes (s.requested input) (s.step input).1.allocator (s.grants input) := by
  cases input with
  | fetched now i fullData =>
    simp only [requested, grants, step]
    cases hread : s.waiting[i]? with
    | none => exact .refused
    | some read =>
      simp only [allocator, Daemon.finishReadVa_fetchAgent, Option.map_some, Option.getD_some]
      rcases s.daemon.fetchAgent.completeFetch_cases now read.region.regionId read.region.len
        read.region.epoch with ⟨⟨e, herror⟩, hshrinks⟩ | ⟨entry, hok, hinserted⟩
      · rw [herror, hshrinks.allocator]
        exact .refused
      · rw [hok, hinserted.allocator, hinserted.poolOffset]
        exact .granted (if_neg (UInt64.not_lt.mpr hinserted.fits))
  | _ =>
    rw [allocator_step_of_not_fetched s (by intro _ _ _ h; cases h)]
    exact .refused

theorem grants_ne_nil_iff (s : ServingDaemon) (input : RegionInput) :
    s.grants input ≠ [] ↔ s.FindsRoom input := by
  cases input with
  | fetched now i fullData =>
    simp only [grants, FindsRoom]
    cases hread : s.waiting[i]? with
    | none => simp
    | some read =>
      let pool := s.daemon.fetchAgent.cachePool
      let table := s.daemon.fetchAgent.regionTable
      have hallocator : _ = s.allocator :=
        (CachePool.shrinks_makeRoom read.region.len (pool.entries.entries.length + 1) pool
          table).allocator
      simp only [Option.mem_some_iff, exists_eq_left']
      rcases pool.insert_inv table now read.region.regionId read.region.len read.region.epoch with
        ⟨hfull, message, hinsert⟩ | ⟨hroom, allocator, poolOffset, halloc, hinsert⟩
      · refine iff_of_false ?_ ?_
        · simp only [FetchAgent.completeFetch]
          rw [hinsert]
          simp
        · rintro ⟨hroom, hle⟩
          have hnone := hfull hroom
          rw [hallocator, SubAllocator.alloc, if_neg (UInt64.not_lt.mpr hle)] at hnone
          cases hnone
      · refine iff_of_true ?_ ⟨hroom, ?_⟩
        · simp only [FetchAgent.completeFetch]
          rw [hinsert]
          simp
        · rw [hallocator] at halloc
          exact (SubAllocator.alloc_eq_some halloc).1
  | _ => exact iff_of_false (fun h => h rfl) id

theorem live_start (config : DaemonConfig) :
    (start config).allocator.Live 0 config.cacheMaxBytes [] := by
  have hstart : (start config).allocator = .new 0 config.cacheMaxBytes := by
    simp only [start, allocator, Daemon.start]
    split_ifs
    · split <;> rfl
    · rfl
  rw [hstart]
  exact SubAllocator.live_new 0 config.cacheMaxBytes

end ServingDaemon

/-- The ranges handed out lie in the pool, apart from each other, and the cursor only
moves up in the pool, just in case no request is granted that wraps; and the same for
the copies that a daemon caches of whatever regions it is told of. -/
theorem sub_allocations_safe_iff (base total : UInt64)
    (hrange : base.toNat + total.toNat < 2 ^ 64) (sizes : List UInt64) (config : DaemonConfig)
    (inputs : List RegionInput) :
    (Runs.Meets SubAllocator.step
        (fun a log size => a.Safe log (a.step size).2 (a.step size).1) (.new base total) [] sizes ↔
      Runs.Meets SubAllocator.step
        (fun a _ size => a.allocated + size ≤ a.totalLen →
          a.allocated.toNat + size.toNat < 2 ^ 64)
        (.new base total) [] sizes) ∧
    (Runs.Meets ServingDaemon.allocStep
        (fun s log input => s.allocator.Safe log (s.grants input) (s.step input).1.allocator)
        (.start config) [] inputs ↔
      Runs.Meets ServingDaemon.allocStep
        (fun s _ input => s.FindsRoom input →
          s.allocator.allocated.toNat + (s.requested input).toNat < 2 ^ 64)
        (.start config) [] inputs) := by
  constructor
  · apply Runs.meets_iff (I := SubAllocator.Live base total) _ _ (SubAllocator.live_new base total)
    · intro a log size h
      exact (h.safe_iff hrange (a.takes_step size)).trans
        (imp_congr_left (a.step_ne_nil_iff size))
    · intro a log size h hsafe
      have htakes := a.takes_step size
      exact h.takes hrange htakes ((h.safe_iff hrange htakes).mp hsafe)
  · have hpool : (0 : UInt64).toNat + config.cacheMaxBytes.toNat < 2 ^ 64 := by
      rw [UInt64.toNat_zero, Nat.zero_add]
      exact config.cacheMaxBytes.toNat_lt
    apply Runs.meets_iff (I := fun s log => s.allocator.Live 0 config.cacheMaxBytes log) _ _
      (ServingDaemon.live_start config)
    · intro s log input h
      exact (h.safe_iff hpool (s.takes_allocStep input)).trans
        (imp_congr_left (s.grants_ne_nil_iff input))
    · intro s log input h hsafe
      have htakes := s.takes_allocStep input
      exact h.takes hpool htakes ((h.safe_iff hpool htakes).mp hsafe)

theorem sub_allocations_safe_iff_two :
    Runs.Meets SubAllocator.step
        (fun a log size => a.Safe log (a.step size).2 (a.step size).1) (.new 0 16) [] [8, 8] ∧
      Runs.Meets ServingDaemon.allocStep
        (fun s log input => s.allocator.Safe log (s.grants input) (s.step input).1.allocator)
        (.start defaultConfig) [] (startFetch ++ [finishFetch]) := by
  obtain ⟨hsizes, hinputs⟩ := sub_allocations_safe_iff 0 16 (by decide) [8, 8] defaultConfig
    (startFetch ++ [finishFetch])
  refine ⟨hsizes.mpr ⟨fun _ => by decide, fun _ => by decide, trivial⟩, hinputs.mpr ?_⟩
  exact ⟨fun hroom => absurd hroom id, fun hroom => absurd hroom id, fun _ => by decide, trivial⟩

/-- A length near `2 ^ 64` is granted and moves the cursor back: the first range is
handed out again, and two cached regions lie in the same bytes. -/
theorem wrapping_size_overlaps :
    (Runs.run SubAllocator.step (.new 0 16) [8, 18446744073709551608, 8]).2 =
        [(0, 8), (8, 2 ^ 64 - 8), (0, 8)] ∧
      ¬ Runs.Meets SubAllocator.step
        (fun a log size => a.Safe log (a.step size).2 (a.step size).1) (.new 0 16) []
        [8, 18446744073709551608, 8] ∧
      let p := (Runs.run CachePool.step (.withRegionTable (.new 0 16) 16, .new)
        [.insert 0 ⟨1⟩ 8 0, .insert 1 ⟨2⟩ 18446744073709551608 0, .insert 2 ⟨3⟩ 8 0]).1.1
      p.ranges ⟨1⟩ = some (0, 8) ∧ p.ranges ⟨3⟩ = some (0, 8) := by
  refine ⟨by decide +kernel, ?_, by decide +kernel, by decide +kernel⟩
  rintro ⟨-, hsafe, -⟩
  exact absurd hsafe.mono (by decide +kernel)

/-! ## How long a pool works -/

namespace CachePool

/-- The operations of a pool; the bytes that an insertion takes from the allocator are
logged. -/
def takeStep (s : CachePool × RegionTable) (call : PoolCall) :
    (CachePool × RegionTable) × List ℕ :=
  ((step s call).1,
    match call with
    | .insert now regionId len epoch =>
      match (s.1.insert s.2 now regionId len epoch).2.2 with
      | .error _ => []
      | .ok entry => [entry.len.toNat]
    | _ => [])

/-- The pool as it is set up, after insertions that took the given lengths. -/
structure Consumed (maxBytes : UInt64) (s : CachePool × RegionTable) (log : List ℕ) : Prop where
  tracked : ∃ drift, Tracked (.new 0 maxBytes) log.sum drift s.1
  allocated : s.1.allocator.allocated.toNat = log.sum
  maxBytes : s.1.maxBytes = maxBytes

theorem consumed_start (maxBytes : UInt64) (table : RegionTable) :
    Consumed maxBytes (withRegionTable (.new 0 maxBytes) maxBytes, table) [] :=
  ⟨⟨0, tracked_empty (.new 0 maxBytes) maxBytes true⟩, rfl, rfl⟩

variable {maxBytes : UInt64} {s : CachePool × RegionTable} {log : List ℕ}

theorem maxBytes_evictLru {p p' : CachePool} {table table' : RegionTable}
    (h : p.evictLru table = some (p', table')) : p'.maxBytes = p.maxBytes := by
  unfold evictLru at h
  split at h
  · cases h
  · cases h
    rfl

theorem maxBytes_makeRoom (len : UInt64) (fuel : ℕ) (p : CachePool) (table : RegionTable) :
    (makeRoom len fuel p table).1.maxBytes = p.maxBytes :=
  makeRoom_keeps (I := fun p' _ => p'.maxBytes = p.maxBytes)
    (fun _ _ _ _ h hevict => (maxBytes_evictLru hevict).trans h) len fuel rfl

theorem maxBytes_insert (p : CachePool) (table : RegionTable) (now : Instant)
    (regionId : RegionId) (len epoch : UInt64) :
    (p.insert table now regionId len epoch).1.maxBytes = p.maxBytes := by
  have hroom := maxBytes_makeRoom len (p.entries.entries.length + 1) p table
  rcases p.insert_inv table now regionId len epoch with
    ⟨-, message, hinsert⟩ | ⟨-, allocator, poolOffset, -, hinsert⟩
  · rw [hinsert]
    exact hroom
  · rw [hinsert]
    exact hroom

theorem step_quiet (s : CachePool × RegionTable) {call : PoolCall}
    (hcall : ∀ now regionId len epoch, call ≠ .insert now regionId len epoch) :
    (step s call).1.1.allocator = s.1.allocator ∧ (step s call).1.1.maxBytes = s.1.maxBytes := by
  cases call with
  | insert now regionId len epoch => exact absurd rfl (hcall now regionId len epoch)
  | remove regionId =>
    simp only [step, remove]
    split <;> exact ⟨rfl, rfl⟩
  | evictLru =>
    simp only [step]
    split
    · exact ⟨rfl, rfl⟩
    · next evicted hevict =>
      exact ⟨(shrinks_evictLru hevict).allocator, maxBytes_evictLru hevict⟩
  | lookup now regionId => exact ⟨rfl, rfl⟩
  | updateEpoch now regionId epoch => exact ⟨rfl, rfl⟩

theorem toNat_range (maxBytes : UInt64) : (SubAllocator.new 0 maxBytes).baseOffset.toNat +
    (SubAllocator.new 0 maxBytes).totalLen.toNat < 2 ^ 64 := by
  show (0 : UInt64).toNat + maxBytes.toNat < 2 ^ 64
  rw [UInt64.toNat_zero, Nat.zero_add]
  exact maxBytes.toNat_lt

theorem Consumed.insert (h : Consumed maxBytes s log) (now : Instant) (regionId : RegionId)
    (len epoch : UInt64)
    (hfits : (log ++ (takeStep s (.insert now regionId len epoch)).2).sum < 2 ^ 64) :
    Consumed maxBytes (takeStep s (.insert now regionId len epoch)).1
      (log ++ (takeStep s (.insert now regionId len epoch)).2) := by
  obtain ⟨drift, htracked⟩ := h.tracked
  have hmax := maxBytes_insert s.1 s.2 now regionId len epoch
  have houtcome := htracked.insert_outcome (toNat_range maxBytes) s.2 now regionId len epoch
  rcases insert_cases (p := s.1) s.2 now regionId len epoch with
    ⟨⟨e, herror⟩, hshrinks⟩ | ⟨entry, hok, hinserted⟩
  · simp only [takeStep, step, herror, List.append_nil]
    rcases houtcome with ⟨-, -, hsame⟩ | ⟨entry, hok, -⟩
    · refine ⟨⟨drift, hsame⟩, ?_, hmax.trans h.maxBytes⟩
      rw [hshrinks.allocator]
      exact h.allocated
    · rw [herror] at hok
      cases hok
  · rcases houtcome with ⟨⟨e, herror⟩, -⟩ | ⟨entry', hok', hlen, hstored⟩
    · rw [herror] at hok
      cases hok
    · obtain rfl : entry' = entry := by
        rw [hok] at hok'
        cases hok'
        rfl
      simp only [takeStep, step, hok, List.sum_append, List.sum_singleton, hlen] at hfits ⊢
      refine ⟨⟨drift + s.1.overwritten s.2 regionId len, ?_⟩, ?_, hmax.trans h.maxBytes⟩
      · rw [List.sum_append, List.sum_singleton]
        exact hstored hfits
      · rw [hinserted.allocator, List.sum_append, List.sum_singleton, ← h.allocated]
        exact Checked.toNat_addU64 (by rw [h.allocated]; exact hfits)

theorem Consumed.quiet (h : Consumed maxBytes s log) {call : PoolCall}
    (hcall : ∀ now regionId len epoch, call ≠ .insert now regionId len epoch)
    (hlen : call.len = 0) (hfits : log.sum < 2 ^ 64) :
    Consumed maxBytes (CachePool.step s call).1 log := by
  obtain ⟨drift, htracked⟩ := h.tracked
  obtain ⟨hallocator, hmax⟩ := step_quiet s hcall
  have hstep := htracked.step (toNat_range maxBytes) call (by rwa [hlen])
  rw [hlen, Nat.add_zero] at hstep
  refine ⟨⟨_, hstep⟩, ?_, hmax.trans h.maxBytes⟩
  rw [hallocator]
  exact h.allocated

theorem Consumed.step (h : Consumed maxBytes s log) (call : PoolCall)
    (hfits : (log ++ (takeStep s call).2).sum < 2 ^ 64) :
    Consumed maxBytes (takeStep s call).1 (log ++ (takeStep s call).2) := by
  cases call with
  | insert now regionId len epoch => exact h.insert now regionId len epoch hfits
  | _ =>
    simp only [takeStep, List.append_nil] at hfits ⊢
    refine h.quiet ?_ rfl hfits
    intro now regionId len epoch heq
    cases heq

/-- An insertion succeeds just in case its bytes are left in the allocator. -/
theorem Consumed.insert_ok_iff (h : Consumed maxBytes s log) (now : Instant)
    (regionId : RegionId) {len : UInt64} (epoch : UInt64)
    (hfits : log.sum + len.toNat < 2 ^ 64) :
    (∃ entry, (s.1.insert s.2 now regionId len epoch).2.2 = .ok entry ∧
        (s.1.insert s.2 now regionId len epoch).1.entries.lookup regionId = some entry) ↔
      log.sum + len.toNat ≤ maxBytes.toNat := by
  obtain ⟨drift, htracked⟩ := h.tracked
  have htotal : s.1.allocator.totalLen = maxBytes := htracked.totalLen
  have hcursor : (s.1.allocator.allocated + len).toNat = log.sum + len.toNat := by
    rw [← h.allocated] at hfits ⊢
    exact Checked.toNat_addU64 hfits
  constructor
  · rintro ⟨entry, hok, -⟩
    rcases insert_cases (p := s.1) s.2 now regionId len epoch with
      ⟨⟨e, herror⟩, -⟩ | ⟨entry', -, hinserted⟩
    · rw [herror] at hok
      cases hok
    · rw [← hcursor, ← htotal]
      exact UInt64.le_iff_toNat_le.mp hinserted.fits
  · intro hle
    have hused := htracked.used_le
    have hroom : s.1.usedBytes + len ≤ s.1.maxBytes := by
      rw [UInt64.le_iff_toNat_le, h.maxBytes, Checked.toNat_addU64 (by omega)]
      omega
    have hspace : ¬ s.1.allocator.allocated + len > s.1.allocator.totalLen := by
      rw [htotal, gt_iff_lt, UInt64.not_lt, UInt64.le_iff_toNat_le, hcursor]
      exact hle
    simp only [CachePool.insert, makeRoom_of_le hroom, SubAllocator.alloc, if_neg hspace]
    exact ⟨_, rfl, AList.lookup_insert _⟩

/-- In a pool set up as the daemon does, an insertion succeeds and leaves its region
cached just in case all lengths ever inserted leave room for it, whatever was evicted
since. -/
theorem insertion_succeeds_iff (maxBytes : UInt64) (table : RegionTable) (calls : List PoolCall)
    (now : Instant) (regionId : RegionId) (len epoch : UInt64)
    (hfits : (Runs.run takeStep (withRegionTable (.new 0 maxBytes) maxBytes, table) calls).2.sum +
      len.toNat < 2 ^ 64) :
    let run := Runs.run takeStep (withRegionTable (.new 0 maxBytes) maxBytes, table) calls
    (∃ entry, (run.1.1.insert run.1.2 now regionId len epoch).2.2 = .ok entry ∧
        (run.1.1.insert run.1.2 now regionId len epoch).1.entries.lookup regionId =
          some entry) ↔
      run.2.sum + len.toNat ≤ maxBytes.toNat := by
  intro run
  have hmeets : Runs.Meets takeStep (fun s log call => (log ++ (takeStep s call).2).sum < 2 ^ 64)
      (withRegionTable (.new 0 maxBytes) maxBytes, table) [] calls := by
    apply Runs.meets_of_log (P := fun log => log.sum < 2 ^ 64)
    · intro log events hsum
      rw [List.sum_append] at hsum
      omega
    · rw [List.nil_append]
      omega
  have hconsumed := Runs.run_invariant (I := Consumed maxBytes)
    (fun s log call h hfits => h.step call hfits) (consumed_start maxBytes table) hmeets
  exact hconsumed.insert_ok_iff now regionId epoch hfits

theorem insertion_succeeds_iff_second :
    let run := Runs.run takeStep (withRegionTable (.new 0 16) 16, .new)
      [.insert 0 ⟨1⟩ 8 0, .remove ⟨1⟩]
    ∃ entry, (run.1.1.insert run.1.2 1 ⟨2⟩ 8 0).2.2 = .ok entry ∧
      (run.1.1.insert run.1.2 1 ⟨2⟩ 8 0).1.entries.lookup ⟨2⟩ = some entry :=
  (insertion_succeeds_iff 16 .new [.insert 0 ⟨1⟩ 8 0, .remove ⟨1⟩] 1 ⟨2⟩ 8 0 (by decide)).mpr
    (by decide)

/-- A pool of 8 bytes caches one region of 8 bytes and, although it evicts it, never
another one. -/
theorem emptied_pool_exhausted :
    let s := (Runs.run step (withRegionTable (.new 0 8) 8, .new) [.insert 0 ⟨1⟩ 8 0]).1
    let after := s.1.insert s.2 1 ⟨2⟩ 8 0
    s.1.entries.lookup ⟨2⟩ = none ∧ after.2.2 = .error "sub-allocator exhausted" ∧
      after.1.entries.entries = [] ∧ after.1.usedBytes = 0 :=
  ⟨rfl, rfl, rfl, rfl⟩

end CachePool
end UniBus.Managed
