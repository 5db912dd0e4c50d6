import UniBus.Foundations.Recency
import UniBus.Foundations.Runs
import UniBus.Transport.ReadCache

/-!
# The response cache as a function of its history

Among the calls on a cache that no entry outlives, the answer of a lookup depends on
the history alone: the response inserted last, if fewer keys than the capacity were
inserted or hit since the key itself was. The calls are mixed with arbitrary changes
of the order in which the map is iterated. The order counter is a natural number, as
it does not wrap in the first `2 ^ 64` calls.
-/
namespace UniBus.Transport

abbrev CachedResponse := Sigma fun _ : CacheKey => CacheEntry

inductive CacheCall
  | get (now : Instant) (key : CacheKey)
  | insert (now : Instant) (key : CacheKey) (response : List UInt8)
  /-- From here on the map is iterated in the order of the given entries. -/
  | rehash (entries : AList fun _ : CacheKey => CacheEntry)

inductive CacheEvent
  | got (key : CacheKey) (response : Option (List UInt8))
  | inserted (key : CacheKey) (response : List UInt8)
  deriving DecidableEq

namespace ReadResponseCache

def step (c : ReadResponseCache) : CacheCall → ReadResponseCache × List CacheEvent
  | .get now key => ((c.get now key).1, [.got key (c.get now key).2])
  | .insert now key response => (c.insert now key response, [.inserted key response])
  | .rehash entries =>
    (if entries.entries.Perm c.entries.entries then { c with entries } else c, [])

/-- No entry is expired. -/
def Fresh (c : ReadResponseCache) (now : Instant) : Prop :=
  ∀ e ∈ c.entries.entries, now - e.2.insertedAt ≤ c.ttl

instance (c : ReadResponseCache) (now : Instant) : Decidable (c.Fresh now) :=
  inferInstanceAs (Decidable (∀ e ∈ c.entries.entries, _))

/-- No entry is expired, and only keys that are not cached are inserted. -/
def Admissible (c : ReadResponseCache) (_ : List CacheEvent) : CacheCall → Prop
  | .get now _ => c.Fresh now
  | .insert now key _ => c.Fresh now ∧ c.entries.lookup key = none
  | .rehash _ => True

instance (c : ReadResponseCache) (log : List CacheEvent) :
    (call : CacheCall) → Decidable (c.Admissible log call)
  | .get now _ => inferInstanceAs (Decidable (c.Fresh now))
  | .insert now key _ => inferInstanceAs (Decidable (c.Fresh now ∧ c.entries.lookup key = none))
  | .rehash _ => inferInstanceAs (Decidable True)

end ReadResponseCache

/-! ## The history -/

/-- The key that a call inserted or hit. -/
def CacheEvent.touched : CacheEvent → Option CacheKey
  | .got key (some _) => some key
  | .got _ none => none
  | .inserted key _ => some key

def touches (log : List CacheEvent) : List CacheKey := (log.filterMap CacheEvent.touched).reverse

def CacheEvent.responseFor (key : CacheKey) : CacheEvent → Option (List UInt8)
  | .inserted key' response => if key' = key then some response else none
  | .got _ _ => none

/-- The response inserted last for a key. -/
def lastInserted (log : List CacheEvent) (key : CacheKey) : Option (List UInt8) :=
  log.reverse.findSome? (CacheEvent.responseFor key)

/-- The key was inserted or hit, and fewer other keys than the capacity were since. -/
def Recent (capacity : ℕ) (log : List CacheEvent) (key : CacheKey) : Prop :=
  key ∈ touches log ∧ ((touches log).takeWhile (· ≠ key)).toFinset.card < capacity

instance (capacity : ℕ) (log : List CacheEvent) (key : CacheKey) :
    Decidable (Recent capacity log key) := inferInstanceAs (Decidable (_ ∧ _))

/-- What a call on an exact cache logs after the given history. -/
def lruEvents (capacity : ℕ) (log : List CacheEvent) : CacheCall → List CacheEvent
  | .get _ key => [.got key (if Recent capacity log key then lastInserted log key else none)]
  | .insert _ key response => [.inserted key response]
  | .rehash _ => []

/-- The history of an exact cache. -/
def lruLog (capacity : ℕ) (calls : List CacheCall) : List CacheEvent :=
  calls.foldl (fun log call => log ++ lruEvents capacity log call) []

section History
variable {log : List CacheEvent} {key key' : CacheKey} {response : List UInt8}

@[simp] theorem touches_missed : touches (log ++ [.got key none]) = touches log := by
  simp [touches, CacheEvent.touched]

@[simp] theorem touches_hit :
    touches (log ++ [.got key (some response)]) = key :: touches log := by
  simp [touches, CacheEvent.touched]

@[simp] theorem touches_inserted :
    touches (log ++ [.inserted key response]) = key :: touches log := by
  simp [touches, CacheEvent.touched]

@[simp] theorem lastInserted_got (answer : Option (List UInt8)) :
    lastInserted (log ++ [.got key' answer]) key = lastInserted log key := by
  simp only [lastInserted, List.reverse_append, List.reverse_singleton, List.singleton_append]
  rfl

@[simp] theorem lastInserted_inserted_self :
    lastInserted (log ++ [.inserted key response]) key = some response := by
  simp [lastInserted, CacheEvent.responseFor]

theorem lastInserted_inserted_ne (h : key' ≠ key) :
    lastInserted (log ++ [.inserted key' response]) key = lastInserted log key := by
  simp [lastInserted, CacheEvent.responseFor, h]

end History

namespace ReadResponseCache

/-! ## The cache and its history -/

/-- The entries, the latest touched first, are those of the first keys of the stack of
touched keys. -/
structure Lru (capacity : ℕ) (c : ReadResponseCache) (log : List CacheEvent)
    (order : List CachedResponse) : Prop where
  capacity_eq : c.capacity = capacity
  perm : order.Perm c.entries.entries
  sorted : order.Pairwise fun a b => b.2.order < a.2.order
  below : ∀ e ∈ order, e.2.order < c.nextOrder
  keys : order.map (fun e => e.1) = (Recency.stack (touches log)).take capacity
  response : ∀ e ∈ order, lastInserted log e.1 = some e.2.response

variable {capacity n : ℕ} {c : ReadResponseCache} {log : List CacheEvent}
  {order : List CachedResponse} {now : Instant} {key : CacheKey} {response : List UInt8}

theorem lru_new (capacity ttl : ℕ) : Lru capacity (new capacity ttl) [] [] :=
  ⟨rfl, .nil, .nil, by simp, by simp [touches, Recency.stack], by simp⟩

section
variable (h : Lru capacity c log order)
include h

theorem Lru.nodup : (order.map fun e => e.1).Nodup := by
  rw [h.keys]
  exact (Recency.nodup_stack _).sublist (List.take_sublist _ _)

theorem Lru.mem_keys_iff :
    key ∈ order.map (fun e => e.1) ↔ Recent capacity log key := by
  rw [h.keys, Recency.mem_take_stack_iff, Recent]

theorem Lru.mem_of_lookup {entry : CacheEntry} (hentry : c.entries.lookup key = some entry) :
    (⟨key, entry⟩ : CachedResponse) ∈ order :=
  h.perm.symm.subset (AList.mem_lookup_iff.mp hentry)

theorem Lru.notMem_of_lookup (hnone : c.entries.lookup key = none) :
    key ∉ order.map (fun e => e.1) := by
  intro hmem
  obtain ⟨⟨k, entry⟩, hentry, rfl⟩ := List.mem_map.mp hmem
  have hlookup : c.entries.lookup k = some entry :=
    AList.mem_lookup_iff.mpr (h.perm.subset hentry)
  rw [hnone] at hlookup
  cases hlookup

theorem Lru.length_le : c.entries.entries.length ≤ capacity := by
  have hlength := congrArg List.length h.keys
  rw [List.length_map, h.perm.length_eq] at hlength
  rw [hlength]
  exact List.length_take_le _ _

end

/-! ## Lookups -/

theorem Lru.missed (h : Lru capacity c log order) : Lru capacity c (log ++ [.got key none]) order :=
  ⟨h.capacity_eq, h.perm, h.sorted, h.below, by rw [touches_missed, h.keys],
    fun e he => by rw [lastInserted_got, h.response e he]⟩

theorem Lru.hit (h : Lru (n + 1) c log order) {entry : CacheEntry}
    (hentry : c.entries.lookup key = some entry) :
    Lru (n + 1)
      { c with
        entries := c.entries.insert key { entry with order := c.nextOrder }
        nextOrder := c.nextOrder + 1 }
      (log ++ [.got key (some entry.response)])
      (⟨key, { entry with order := c.nextOrder }⟩ :: order.filter fun e => e.1 ≠ key) := by
  have hmem := h.mem_of_lookup hentry
  have hothers : (order.filter fun e => e.1 ≠ key).Perm (c.entries.erase key).entries :=
    Recency.perm_entries_erase ((Recency.perm_cons_filter_ne h.nodup hmem).trans h.perm)
  refine ⟨h.capacity_eq, hothers.cons _, ?_, ?_, ?_, ?_⟩
  · refine List.pairwise_cons.mpr ⟨?_, h.sorted.filter _⟩
    intro e he
    exact h.below e (List.mem_of_mem_filter he)
  · intro e he
    rcases List.mem_cons.mp he with rfl | he
    · exact Nat.lt_succ_self _
    · exact (h.below e (List.mem_of_mem_filter he)).trans (Nat.lt_succ_self _)
  · have hkey : key ∈ (Recency.stack (touches log)).take (n + 1) := by
      rw [← h.keys]
      exact List.mem_map_of_mem hmem
    rw [touches_hit, Recency.take_stack_cons_of_mem hkey, ← h.keys, List.map_cons,
      List.filter_map]
    rfl
  · intro e he
    rw [lastInserted_got]
    rcases List.mem_cons.mp he with rfl | he
    · exact h.response ⟨key, entry⟩ hmem
    · exact h.response e (List.mem_of_mem_filter he)

theorem Lru.get (h : Lru (n + 1) c log order) (hfresh : c.Fresh now) (key : CacheKey) :
    (c.get now key).2 = (if Recent (n + 1) log key then lastInserted log key else none) ∧
      ∃ order', Lru (n + 1) (c.get now key).1 (log ++ [.got key (c.get now key).2]) order' := by
  unfold ReadResponseCache.get
  cases hentry : c.entries.lookup key with
  | none =>
    have hnot : ¬ Recent (n + 1) log key := by
      rw [← h.mem_keys_iff]
      exact h.notMem_of_lookup hentry
    rw [if_neg hnot]
    exact ⟨rfl, order, h.missed⟩
  | some entry =>
    have hmem := h.mem_of_lookup hentry
    have hrecent : Recent (n + 1) log key := h.mem_keys_iff.mp (List.mem_map_of_mem hmem)
    have halive : ¬ now - entry.insertedAt > c.ttl :=
      Nat.not_lt.mpr (hfresh _ (h.perm.subset hmem))
    rw [if_pos hrecent, h.response _ hmem]
    simp only [if_neg halive]
    exact ⟨trivial, _, h.hit hentry⟩

/-! ## Insertions -/

theorem removeExpired_of_fresh (hfresh : c.Fresh now) : c.removeExpired now = c := by
  have hentries : c.entries.entries.filter (fun e => now - e.2.insertedAt ≤ c.ttl) =
      c.entries.entries := by
    rw [List.filter_eq_self]
    intro e he
    exact decide_eq_true (hfresh e he)
  unfold removeExpired
  congr

theorem Lru.evictIfFull (h : Lru (n + 1) c log order) :
    c.evictIfFull.capacity = n + 1 ∧ c.evictIfFull.nextOrder = c.nextOrder ∧
      (order.take n).Perm c.evictIfFull.entries.entries := by
  have hlength := h.length_le
  rw [← h.perm.length_eq] at hlength
  unfold ReadResponseCache.evictIfFull
  by_cases hfull : c.entries.entries.length ≥ c.capacity
  · rw [h.capacity_eq, ← h.perm.length_eq] at hfull
    obtain rfl | ⟨rest, last, rfl⟩ := List.eq_nil_or_concat' order
    · cases hfull
    · have hrest : rest.length = n := by
        rw [List.length_append, List.length_singleton] at hlength hfull
        omega
      have hmin := Recency.argmin_of_sorted ((List.reverse_perm _).trans h.perm)
        (List.pairwise_reverse.mpr h.sorted)
      have hlru : c.findLruKey = some last.1 := by
        rw [findLruKey, hmin, List.reverse_append, List.reverse_singleton, List.singleton_append,
          List.head?_cons, Option.map_some]
      have hkept : rest.Perm (c.entries.erase last.1).entries :=
        Recency.perm_entries_erase ((List.perm_append_singleton last rest).symm.trans h.perm)
      rw [if_pos (by rw [h.capacity_eq, ← h.perm.length_eq]; exact hfull), hlru,
        List.take_left' hrest]
      exact ⟨h.capacity_eq, rfl, hkept⟩
  · rw [if_neg hfull]
    rw [h.capacity_eq, ← h.perm.length_eq] at hfull
    rw [List.take_of_length_le (by omega)]
    exact ⟨h.capacity_eq, rfl, h.perm⟩

theorem Lru.insert (h : Lru (n + 1) c log order) (hfresh : c.Fresh now)
    (hnew : c.entries.lookup key = none) (response : List UInt8) :
    Lru (n + 1) (c.insert now key response) (log ++ [.inserted key response])
      (⟨key, ⟨response, now, c.nextOrder⟩⟩ :: order.take n) := by
  obtain ⟨hcapacity, hnext, hkept⟩ := h.evictIfFull
  have hnot := h.notMem_of_lookup hnew
  have hsub : ∀ e ∈ order.take n, e ∈ order := fun e he => List.mem_of_mem_take he
  have hne : ∀ e ∈ order.take n, key ≠ e.1 := by
    rintro e he rfl
    exact hnot (List.mem_map_of_mem (hsub e he))
  have habsent : key ∉ c.evictIfFull.entries := by
    intro hmem
    obtain ⟨entry, hentry⟩ := Option.isSome_iff_exists.mp (AList.lookup_isSome.mpr hmem)
    exact hne _ (hkept.symm.subset (AList.mem_lookup_iff.mp hentry)) rfl
  unfold ReadResponseCache.insert
  rw [removeExpired_of_fresh hfresh]
  refine ⟨hcapacity, ?_, ?_, ?_, ?_, ?_⟩
  · dsimp only
    rw [AList.entries_insert_of_notMem habsent, hnext]
    exact hkept.cons _
  · refine List.pairwise_cons.mpr ⟨?_, h.sorted.sublist (List.take_sublist _ _)⟩
    intro e he
    exact h.below e (hsub e he)
  · dsimp only
    rw [hnext]
    intro e he
    rcases List.mem_cons.mp he with rfl | he
    · exact Nat.lt_succ_self _
    · exact (h.below e (hsub e he)).trans (Nat.lt_succ_self _)
  · rw [h.keys] at hnot
    rw [touches_inserted, Recency.take_stack_cons_of_notMem hnot, List.map_cons, List.map_take,
      h.keys, List.take_take, Nat.min_eq_left (Nat.le_succ n)]
  · intro e he
    rcases List.mem_cons.mp he with rfl | he
    · exact lastInserted_inserted_self
    · rw [lastInserted_inserted_ne (hne e he)]
      exact h.response e (hsub e he)

/-! ## Whole runs -/

theorem Lru.rehash (h : Lru capacity c log order) {entries : AList fun _ : CacheKey => CacheEntry}
    (hperm : entries.entries.Perm c.entries.entries) :
    Lru capacity { c with entries } log order :=
  ⟨h.capacity_eq, h.perm.trans hperm.symm, h.sorted, h.below, h.keys, h.response⟩

theorem Lru.step (h : Lru (n + 1) c log order) {call : CacheCall}
    (hcall : c.Admissible log call) :
    (c.step call).2 = lruEvents (n + 1) log call ∧
      ∃ order', Lru (n + 1) (c.step call).1 (log ++ (c.step call).2) order' := by
  cases call with
  | get now key =>
    obtain ⟨hanswer, hafter⟩ := h.get hcall key
    exact ⟨by rw [lruEvents, ← hanswer]; rfl, hafter⟩
  | insert now key response => exact ⟨rfl, _, h.insert hcall.1 hcall.2 response⟩
  | rehash entries =>
    refine ⟨rfl, order, ?_⟩
    simp only [ReadResponseCache.step, List.append_nil]
    split_ifs with hperm
    · exact h.rehash hperm
    · exact h

/-- The answers of a cache are those of the exact cache of its history, in whatever
order the map is iterated; it never holds more entries than its capacity, and a key that
was touched recently has a response. -/
theorem response_cache_exact_lru (capacity ttl : ℕ) (hcapacity : 1 ≤ capacity)
    (calls : List CacheCall)
    (hcalls : Runs.Meets step Admissible (new capacity ttl) [] calls) :
    (Runs.run step (new capacity ttl) calls).2 = lruLog capacity calls ∧
      (Runs.run step (new capacity ttl) calls).1.entries.entries.length ≤ capacity ∧
      ∀ key, Recent capacity (lruLog capacity calls) key →
        ∃ response, lastInserted (lruLog capacity calls) key = some response := by
  obtain ⟨n, rfl⟩ : ∃ n, capacity = n + 1 := ⟨capacity - 1, by omega⟩
  have hstart : ∃ order, Lru (n + 1) (new (n + 1) ttl) [] order := ⟨[], lru_new (n + 1) ttl⟩
  have hstep : ∀ c log call, (∃ order, Lru (n + 1) c log order) → Admissible c log call →
      ∃ order, Lru (n + 1) (step c call).1 (log ++ (step c call).2) order := by
    rintro c log call ⟨order, h⟩ hcall
    exact (h.step hcall).2
  have hevents : ∀ c log call, (∃ order, Lru (n + 1) c log order) → Admissible c log call →
      (step c call).2 = lruEvents (n + 1) log call := by
    rintro c log call ⟨order, h⟩ hcall
    exact (h.step hcall).1
  have hlog : (Runs.run step (new (n + 1) ttl) calls).2 = lruLog (n + 1) calls := by
    have hfold := Runs.log_eq_foldl hstep hevents hstart hcalls
    rwa [List.nil_append] at hfold
  obtain ⟨order, hrun⟩ := Runs.run_invariant hstep hstart hcalls
  rw [List.nil_append, hlog] at hrun
  refine ⟨hlog, hrun.length_le, ?_⟩
  intro key hkey
  obtain ⟨e, he, rfl⟩ := List.mem_map.mp (hrun.mem_keys_iff.mpr hkey)
  exact ⟨e.2.response, hrun.response e he⟩

/-- Two keys fill a cache of two, the first is hit, and a third one pushes the second
out. -/
def threeKeys : List CacheCall :=
  [.insert 0 (1, 1) [1], .insert 1 (1, 2) [2], .get 2 (1, 1), .insert 3 (1, 3) [3], .get 4 (1, 2),
    .get 5 (1, 1)]

theorem response_cache_exact_lru_three :
    (Runs.run step (new 2 10) threeKeys).2 = lruLog 2 threeKeys ∧
      lruLog 2 threeKeys = [.inserted (1, 1) [1], .inserted (1, 2) [2], .got (1, 1) (some [1]),
        .inserted (1, 3) [3], .got (1, 2) none, .got (1, 1) (some [1])] := by
  refine ⟨(response_cache_exact_lru 2 10 (by decide) threeKeys ?_).1, by decide⟩
  exact ⟨by decide, by decide, by decide, by decide, by decide, by decide, trivial⟩

end ReadResponseCache
end UniBus.Transport
