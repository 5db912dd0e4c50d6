import UniBus.Managed.Storage

/-!
# Home regions

Every node numbers the regions it allocates from its own counter, and one table
keyed by these numbers holds the regions of the node and those it was told of.
A home region keeps its entry as long as the numbers of the two kinds stay apart:
only numbers of other nodes' regions are ever fetched, evicted or invalidated.
-/
namespace UniBus.Managed

/-! ## Regions that are not at home here -/

/-- The entries are stored under their regions, the home regions are those that
are not remote, and only remote regions have copies. -/
structure HomesApart (remote : RegionId → Prop) (table : RegionTable) (p : CachePool) : Prop where
  keyed : ∀ id info, table.lookup id = some info → info.regionId = id
  home_iff : ∀ id info, table.lookup id = some info → (info.state = .home ↔ ¬ remote id)
  copies : ∀ id entry, p.entries.lookup id = some entry → entry.regionId = id ∧ remote id

/-- The step leaves the tables apart and no entry of a home region changes. -/
structure SparesHomes (remote : RegionId → Prop) (table table' : RegionTable) (p' : CachePool) :
    Prop where
  apart : HomesApart remote table' p'
  spared : ∀ id, ¬ remote id → table'.lookup id = table.lookup id

section
variable {remote : RegionId → Prop} {table table' : RegionTable} {p p' : CachePool}

namespace HomesApart

section
variable (h : HomesApart remote table p)
include h

theorem spares : SparesHomes remote table table p :=
  ⟨h, fun _ _ => rfl⟩

theorem of_copies
    (hcopies : ∀ id entry, p'.entries.lookup id = some entry → entry.regionId = id ∧ remote id) :
    SparesHomes remote table table p' :=
  ⟨⟨h.keyed, h.home_iff, hcopies⟩, fun _ _ => rfl⟩

theorem modify {regionId : RegionId} (hremote : remote regionId) (f : RegionInfo → RegionInfo)
    (hkey : ∀ info, (f info).regionId = info.regionId)
    (hstate : ∀ info, (f info).state = .home → info.state = .home) :
    SparesHomes remote table ⟨Maps.modify table.entries regionId f⟩ p := by
  have hother : ∀ id, id ≠ regionId →
      (⟨Maps.modify table.entries regionId f⟩ : RegionTable).lookup id = table.lookup id :=
    fun id hne => Maps.lookup_modify_ne hne f
  have hself : ∀ info, (⟨Maps.modify table.entries regionId f⟩ : RegionTable).lookup regionId =
      some info → ∃ old, table.lookup regionId = some old ∧ f old = info := by
    intro info hinfo
    exact Option.map_eq_some_iff.mp ((Maps.lookup_modify _ _ f).symm.trans hinfo)
  refine ⟨⟨?_, ?_, h.copies⟩, ?_⟩
  · intro id info hinfo
    by_cases hne : id = regionId
    · subst hne
      obtain ⟨old, hold, rfl⟩ := hself info hinfo
      exact (hkey old).trans (h.keyed id old hold)
    · rw [hother id hne] at hinfo
      exact h.keyed id info hinfo
  · intro id info hinfo
    by_cases hne : id = regionId
    · subst hne
      obtain ⟨old, hold, rfl⟩ := hself info hinfo
      exact ⟨fun hhome => (h.home_iff id old hold).mp (hstate old hhome),
        fun hnot => absurd hremote hnot⟩
    · rw [hother id hne] at hinfo
      exact h.home_iff id info hinfo
  · intro id hnot
    exact hother id fun heq => hnot (heq ▸ hremote)

theorem setState {regionId : RegionId} (hremote : remote regionId) (state : RegionState)
    (hstate : state ≠ .home) :
    SparesHomes remote table (table.setState regionId state) p :=
  h.modify hremote _ (fun _ => rfl) fun _ hhome => absurd hhome hstate

theorem insert {remote' : RegionId → Prop} (info : RegionInfo)
    (hothers : ∀ id, id ≠ info.regionId → (remote' id ↔ remote id))
    (hinfo : info.state = .home ↔ ¬ remote' info.regionId) (hmono : ∀ id, remote id → remote' id) :
    HomesApart remote' (table.insert info) p := by
  refine ⟨?_, ?_, ?_⟩
  · intro id found hfound
    by_cases hid : id = info.regionId
    · subst hid
      rw [RegionTable.lookup_insert] at hfound
      cases hfound
      rfl
    · rw [RegionTable.lookup_insert_ne _ hid] at hfound
      exact h.keyed id found hfound
  · intro id found hfound
    by_cases hid : id = info.regionId
    · subst hid
      rw [RegionTable.lookup_insert] at hfound
      cases hfound
      exact hinfo
    · rw [RegionTable.lookup_insert_ne _ hid] at hfound
      rw [hothers id hid]
      exact h.home_iff id found hfound
  · intro id entry hentry
    obtain ⟨hkey, hremote⟩ := h.copies id entry hentry
    exact ⟨hkey, hmono id hremote⟩

theorem setEpoch {regionId : RegionId} (hremote : remote regionId) (epoch : UInt64) :
    SparesHomes remote table (table.setEpoch regionId epoch) p :=
  h.modify hremote _ (fun _ => rfl) fun _ hhome => hhome

end

end HomesApart

theorem SparesHomes.trans {table₁ table₂ table₃ : RegionTable} {p₂ p₃ : CachePool}
    (h : SparesHomes remote table₁ table₂ p₂) (k : SparesHomes remote table₂ table₃ p₃) :
    SparesHomes remote table₁ table₃ p₃ :=
  ⟨k.apart, fun id hid => (k.spared id hid).trans (h.spared id hid)⟩

namespace HomesApart

theorem erase (h : HomesApart remote table p) {regionId : RegionId}
    (hentries : p'.entries = p.entries.erase regionId) : SparesHomes remote table table p' := by
  apply h.of_copies
  intro id entry hentry
  rw [hentries] at hentry
  exact h.copies id entry (Maps.lookup_erase_of_some hentry)

theorem lookup (h : HomesApart remote table p) (now : Instant) (regionId : RegionId) :
    SparesHomes remote table table (p.lookup now regionId).1 := by
  apply h.of_copies
  intro id entry hentry
  obtain ⟨old, hold, rfl⟩ := Maps.lookup_modify_eq_some hentry
  split_ifs <;> exact h.copies id old hold

theorem evictLru (h : HomesApart remote table p)
    (hevict : p.evictLru table = some (p', table')) : SparesHomes remote table table' p' := by
  unfold CachePool.evictLru at hevict
  split at hevict
  · cases hevict
  · next key entry hmin =>
    obtain ⟨hkey, hremote⟩ := h.copies key entry (AList.mem_lookup_iff.mpr (List.argmin_mem hmin))
    cases hevict
    have herased : SparesHomes remote table table { p with
        entries := p.entries.erase key
        usedBytes := p.usedBytes - entry.len
        allocator := p.allocator.free entry.poolOffset entry.len } := h.erase rfl
    rw [hkey]
    split_ifs
    · exact herased.trans (herased.apart.setState hremote .invalid (by simp))
    · exact herased

theorem makeRoom (len : UInt64) (fuel : ℕ) (p : CachePool) (table : RegionTable)
    (h : HomesApart remote table p) :
    SparesHomes remote table (CachePool.makeRoom len fuel p table).2.1
      (CachePool.makeRoom len fuel p table).1 :=
  CachePool.makeRoom_keeps (I := fun p' table' => SparesHomes remote table table' p')
    (fun _ _ _ _ h hevict => h.trans (h.apart.evictLru hevict)) len fuel h.spares

end HomesApart
end

namespace FetchAgent

variable {remote : RegionId → Prop} {f : FetchAgent}

/-- The home regions and the copies of the agent are apart. -/
def Apart (remote : RegionId → Prop) (f : FetchAgent) : Prop :=
  HomesApart remote f.regionTable f.cachePool

/-- The agent changes no entry of a home region. -/
def Spares (remote : RegionId → Prop) (f f' : FetchAgent) : Prop :=
  SparesHomes remote f.regionTable f'.regionTable f'.cachePool

theorem Apart.invalidateLocal (h : f.Apart remote) {regionId : RegionId}
    (hremote : remote regionId) : f.Spares remote (f.invalidateLocal regionId) := by
  have hremoved : SparesHomes remote f.regionTable f.regionTable
      (f.cachePool.remove regionId).1 := by
    unfold CachePool.remove
    split
    · exact HomesApart.spares h
    · exact HomesApart.erase h rfl
  exact hremoved.trans (hremoved.apart.setState hremote .invalid (by simp))

/-- Only the entry of a Shared region is changed by a read, and only a region that
is not at home here is fetched. -/
theorem Apart.readVa (h : f.Apart remote) (now : Instant) (regionId : RegionId) :
    f.Spares remote (f.readVa now regionId).1 ∧
      ∀ region, (f.readVa now regionId).2 = .cacheMiss region → remote region.regionId := by
  have hremote : ∀ info, f.regionTable.lookup regionId = some info → info.state ≠ .home →
      info.regionId = regionId ∧ remote regionId := by
    intro info hinfo hstate
    refine ⟨h.keyed regionId info hinfo, not_not.mp fun hnot => ?_⟩
    exact hstate ((h.home_iff regionId info hinfo).mpr hnot)
  rcases f.readVa_outcome now regionId with
    ⟨-, heq⟩ | ⟨info, -, -, heq⟩ | ⟨info, hinfo, hstate, heq⟩ |
      ⟨info, epoch, entry, hinfo, hstate, -, heq⟩
  · rw [heq]
    exact ⟨HomesApart.spares h, by simp⟩
  · rw [heq]
    exact ⟨HomesApart.spares h, by simp⟩
  · obtain ⟨hkey, hfetched⟩ := hremote info hinfo hstate
    rw [heq]
    refine ⟨HomesApart.spares h, ?_⟩
    intro region hmiss
    cases hmiss
    rwa [hkey]
  · obtain ⟨hkey, hfetched⟩ := hremote info hinfo (by simp [hstate])
    have hagent : f.Spares remote { f with cachePool := (f.cachePool.lookup now regionId).1 } :=
      HomesApart.lookup h now regionId
    rw [heq]
    split_ifs
    · refine ⟨hagent.trans (Apart.invalidateLocal hagent.apart hfetched), ?_⟩
      intro region hmiss
      cases hmiss
      rwa [hkey]
    · exact ⟨hagent, by simp⟩

theorem Apart.receiveInvalidate (h : f.Apart remote) (regionId : RegionId) (newEpoch : UInt64) :
    f.Spares remote (f.receiveInvalidate regionId newEpoch).1 := by
  unfold FetchAgent.receiveInvalidate
  cases hinfo : f.regionTable.lookup regionId with
  | none => exact HomesApart.spares h
  | some info =>
    have hremote : info.state ≠ .home → remote regionId := fun hstate =>
      not_not.mp fun hnot => hstate ((h.home_iff regionId info hinfo).mpr hnot)
    dsimp only
    cases hstate : info.state with
    | home => exact HomesApart.spares h
    | invalid =>
      dsimp only
      split_ifs
      · exact HomesApart.setEpoch h (hremote (by simp [hstate])) newEpoch
      · exact HomesApart.spares h
    | shared epoch =>
      have hshared : remote regionId := hremote (by simp [hstate])
      dsimp only
      split_ifs
      · have hdropped := h.invalidateLocal hshared
        exact hdropped.trans (HomesApart.setEpoch hdropped.apart hshared newEpoch)
      · exact HomesApart.spares h

theorem Apart.completeFetch (h : f.Apart remote) (now : Instant) {regionId : RegionId}
    (hremote : remote regionId) (len epoch : UInt64) :
    f.Spares remote (f.completeFetch now regionId len epoch).1 := by
  have hroom := HomesApart.makeRoom len (f.cachePool.entries.entries.length + 1) f.cachePool
    f.regionTable h
  rcases f.completeFetch_eq now regionId len epoch with hfull | ⟨allocator, poolOffset, heq⟩
  · rw [hfull]
    exact hroom
  · rw [heq]
    generalize CachePool.makeRoom len (f.cachePool.entries.entries.length + 1) f.cachePool
      f.regionTable = room at hroom
    obtain ⟨pool, table, fits⟩ := room
    have hstored : SparesHomes remote table table { pool with
        allocator
        usedBytes := pool.usedBytes + len
        entries := pool.entries.insert regionId ⟨regionId, poolOffset, len, epoch, now⟩ } := by
      apply hroom.apart.of_copies
      intro id entry hentry
      by_cases hid : id = regionId
      · subst hid
        rw [AList.lookup_insert] at hentry
        cases hentry
        exact ⟨rfl, hremote⟩
      · rw [AList.lookup_insert_ne hid] at hentry
        exact hroom.apart.copies id entry hentry
    have hshared := hstored.apart.setState hremote (.shared epoch) (by simp)
    exact (hroom.trans hstored).trans (hshared.trans (hshared.apart.setEpoch hremote epoch))

end FetchAgent

/-! ## Runs of a daemon -/

inductive HomeInput
  | region (input : RegionInput)
  /-- The cache gives up its oldest copy. -/
  | evictLru

inductive HomeEvent
  /-- `region_alloc` has recorded this entry. -/
  | allocated (info : RegionInfo)
  | registered (regionId : RegionId)
  | freed (regionId : RegionId)
  deriving DecidableEq, Repr

namespace Daemon

variable (d : Daemon)

def evictLru : Daemon :=
  match d.fetchAgent.cachePool.evictLru d.fetchAgent.regionTable with
  | none => d
  | some (cachePool, regionTable) =>
    { d with fetchAgent := { d.fetchAgent with cachePool, regionTable } }

/-- What an input adds to the log: the entry that an allocation has recorded, the
number of a region that was registered or freed. -/
def homeEvents : RegionInput → List HomeEvent
  | .regionAlloc req =>
    match d.regionAlloc req with
    | (_, .error _) => []
    | (d, .ok (va, _)) =>
      ((d.fetchAgent.regionTable.lookup va.regionId).map HomeEvent.allocated).toList
  | .regionFree regionId =>
    match (d.regionFree regionId).2 with
    | .error _ => []
    | .ok () => [.freed regionId]
  | .regionRegisterRemote info =>
    match (d.regionRegisterRemote info).2 with
    | .error _ => []
    | .ok () => [.registered info.regionId]
  | _ => []

end Daemon

def ServingDaemon.homeStep (s : ServingDaemon) : HomeInput → ServingDaemon × List HomeEvent
  | .region input => ((s.step input).1, s.daemon.homeEvents input)
  | .evictLru => ({ s with daemon := s.daemon.evictLru }, [])

/-- The number of another node's region that was registered here. -/
def Registered (log : List HomeEvent) (regionId : RegionId) : Prop := .registered regionId ∈ log

/-- The numbers stay apart: no region is registered under the number of a home
region, and the number that an allocation is about to take has not been used by
a registration or by an allocation before. -/
def NumbersApart (s : ServingDaemon) (log : List HomeEvent) : HomeInput → Prop
  | .region (.regionRegisterRemote info) =>
    ∀ home, s.daemon.fetchAgent.regionTable.lookup info.regionId = some home →
      home.state ≠ .home
  | .region (.regionAlloc _) =>
    ¬ Registered log ⟨s.daemon.placer.nextRegionId⟩ ∧
      ∀ info, .allocated info ∈ log → info.regionId ≠ ⟨s.daemon.placer.nextRegionId⟩
  | _ => True

/-- An allocation fails and changes nothing, or records a home region under the
next number. -/
theorem Daemon.regionAlloc_cases (d : Daemon) (req : Daemon.RegionAllocRequest) :
    ((d.regionAlloc req).1 = d ∧ ∃ e, (d.regionAlloc req).2 = .error e) ∨
    ∃ info va placement, (d.regionAlloc req).2 = .ok (va, placement) ∧
      va.regionId = ⟨d.placer.nextRegionId⟩ ∧ info.regionId = va.regionId ∧
      info.state = .home ∧ (d.regionAlloc req).1.fetchAgent =
        { d.fetchAgent with regionTable := d.fetchAgent.regionTable.insert info } := by
  unfold Daemon.regionAlloc
  split_ifs
  · exact Or.inl ⟨rfl, _, rfl⟩
  cases hplace : d.placer.place req.hints d.nodeId with
  | error e => exact Or.inl ⟨rfl, _, rfl⟩
  | ok placed =>
    obtain ⟨placer, va, placement⟩ := placed
    have hva : va.regionId = ⟨d.placer.nextRegionId⟩ := by
      unfold Placer.place at hplace
      split at hplace
      · cases hplace
      · split at hplace
        · cases hplace
        · cases hplace
          exact UbVa.regionId_new _ _
    exact Or.inr ⟨_, va, placement, rfl, hva, rfl, rfl, rfl⟩

theorem Daemon.verbReadVa_spares {remote : RegionId → Prop} (d : Daemon)
    (h : d.fetchAgent.Apart remote) (now : Instant) (va : UbVa) (offset : UInt64)
    (len : UInt32) :
    d.fetchAgent.Spares remote (d.verbReadVa now va offset len).1.fetchAgent ∧
      ∀ region, (d.verbReadVa now va offset len).2 = .fetching region →
        remote region.regionId := by
  obtain ⟨hspares, hmiss⟩ := h.readVa now va.regionId
  unfold Daemon.verbReadVa
  split_ifs
  · exact ⟨HomesApart.spares h, by simp⟩
  dsimp only
  generalize d.fetchAgent.readVa now va.regionId = started at hspares hmiss
  obtain ⟨fetchAgent, result⟩ := started
  cases result with
  | unknownRegion => exact ⟨hspares, by simp⟩
  | home region => exact ⟨hspares, by simp⟩
  | cacheMiss region =>
    refine ⟨hspares, ?_⟩
    intro other hother
    cases hother
    exact hmiss region rfl
  | cacheHit poolOffset region =>
    have htouched := hspares.trans (HomesApart.lookup hspares.apart now va.regionId)
    dsimp only
    split
    · next cachePool hlookup =>
      rw [hlookup] at htouched
      exact ⟨htouched, by simp⟩
    · next cachePool entry hlookup =>
      rw [hlookup] at htouched
      split_ifs
      · exact ⟨htouched, by simp⟩
      · exact ⟨htouched, by simp⟩

/-- Home regions and registered numbers are apart, and every allocated region has
its entry until it is freed. -/
structure HomesKept (s : ServingDaemon) (log : List HomeEvent) : Prop where
  apart : s.daemon.fetchAgent.Apart (Registered log)
  waiting : ∀ read ∈ s.waiting, Registered log read.region.regionId
  home : ∀ info, .allocated info ∈ log → info.state = .home
  kept : ∀ before info after, log = before ++ .allocated info :: after →
    .freed info.regionId ∉ after →
    s.daemon.fetchAgent.regionTable.lookup info.regionId = some info

namespace HomesKept

variable {s s' : ServingDaemon} {log events : List HomeEvent}

theorem not_registered (h : HomesKept s log) {info : RegionInfo} {before after : List HomeEvent}
    (hlog : log = before ++ .allocated info :: after) (hfreed : .freed info.regionId ∉ after) :
    ¬ Registered log info.regionId := by
  apply (h.apart.home_iff info.regionId info (h.kept before info after hlog hfreed)).mp
  exact h.home info (by simp [hlog])

theorem of_spares (h : HomesKept s log)
    (hspares : s.daemon.fetchAgent.Spares (Registered log) s'.daemon.fetchAgent)
    (hwaiting : ∀ read ∈ s'.waiting, Registered log read.region.regionId) :
    HomesKept s' (log ++ []) := by
  rw [List.append_nil]
  refine ⟨hspares.apart, hwaiting, h.home, ?_⟩
  intro before info after hlog hfreed
  rw [hspares.spared info.regionId (h.not_registered hlog hfreed)]
  exact h.kept before info after hlog hfreed

theorem registered_append (hevents : ∀ id, .registered id ∉ events) :
    Registered (log ++ events) = Registered log := by
  funext id
  simp [Registered, hevents id]

theorem allocated (h : HomesKept s log) {info : RegionInfo} (hhome : info.state = .home)
    (hfresh : ¬ Registered log info.regionId)
    (hnew : ∀ old, .allocated old ∈ log → old.regionId ≠ info.regionId)
    (hagent : s'.daemon.fetchAgent =
      { s.daemon.fetchAgent with regionTable := s.daemon.fetchAgent.regionTable.insert info })
    (hwaiting : s'.waiting = s.waiting) : HomesKept s' (log ++ [.allocated info]) := by
  have hremote : Registered (log ++ [.allocated info]) = Registered log :=
    registered_append (by simp)
  refine ⟨?_, ?_, ?_, ?_⟩
  · rw [hremote, hagent]
    exact HomesApart.insert h.apart info (fun _ _ => Iff.rfl)
      ⟨fun _ => hfresh, fun _ => hhome⟩ fun _ hid => hid
  · rw [hremote, hwaiting]
    exact h.waiting
  · intro other hother
    rcases List.mem_append.mp hother with hold | hself
    · exact h.home other hold
    · cases List.mem_singleton.mp hself
      exact hhome
  · intro before other after hlog hfreed
    rw [hagent]
    rcases Runs.concat_split hlog with ⟨rest, hold, rfl⟩ | ⟨-, hself, -⟩
    · have hne : other.regionId ≠ info.regionId := hnew other (by simp [hold])
      rw [RegionTable.lookup_insert_ne _ hne]
      apply h.kept before other rest hold
      exact fun hmem => hfreed (List.mem_append_left _ hmem)
    · cases hself
      exact RegionTable.lookup_insert _ _

theorem freed (h : HomesKept s log) {regionId : RegionId}
    (hagent : s'.daemon.fetchAgent =
      { s.daemon.fetchAgent with regionTable := s.daemon.fetchAgent.regionTable.remove regionId })
    (hwaiting : s'.waiting = s.waiting) : HomesKept s' (log ++ [.freed regionId]) := by
  have hremote : Registered (log ++ [.freed regionId]) = Registered log :=
    registered_append (by simp)
  refine ⟨?_, ?_, ?_, ?_⟩
  · rw [hremote, hagent]
    refine ⟨?_, ?_, h.apart.copies⟩
    · intro id found hfound
      exact h.apart.keyed id found (Maps.lookup_erase_of_some hfound)
    · intro id found hfound
      exact h.apart.home_iff id found (Maps.lookup_erase_of_some hfound)
  · rw [hremote, hwaiting]
    exact h.waiting
  · intro info hinfo
    exact h.home info (by simpa using hinfo)
  · intro before info after hlog hfreed
    rcases Runs.concat_split hlog with ⟨rest, hold, rfl⟩ | ⟨-, hself, -⟩
    · have hne : info.regionId ≠ regionId := by
        rintro rfl
        exact hfreed (by simp)
      rw [hagent]
      refine (AList.lookup_erase_ne hne).trans (h.kept before info rest hold ?_)
      exact fun hmem => hfreed (List.mem_append_left _ hmem)
    · cases hself

theorem registered (h : HomesKept s log) (info : RegionInfo)
    (hnot : ∀ home, s.daemon.fetchAgent.regionTable.lookup info.regionId = some home →
      home.state ≠ .home) (hstate : info.state ≠ .home)
    (hagent : s'.daemon.fetchAgent =
      { s.daemon.fetchAgent with regionTable := s.daemon.fetchAgent.regionTable.insert info })
    (hwaiting : s'.waiting = s.waiting) : HomesKept s' (log ++ [.registered info.regionId]) := by
  have hmono : ∀ id, Registered log id → Registered (log ++ [.registered info.regionId]) id :=
    fun id hid => List.mem_append_left _ hid
  have hother : ∀ id, id ≠ info.regionId →
      (Registered (log ++ [.registered info.regionId]) id ↔ Registered log id) := by
    intro id hid
    simp [Registered, hid]
  refine ⟨?_, ?_, ?_, ?_⟩
  · rw [hagent]
    refine HomesApart.insert h.apart info hother ?_ hmono
    exact ⟨fun hhome => absurd hhome hstate, fun hfresh => absurd (by simp [Registered]) hfresh⟩
  · intro read hread
    rw [hwaiting] at hread
    exact hmono _ (h.waiting read hread)
  · intro other hallocated
    exact h.home other (by simpa using hallocated)
  · intro before other after hlog hfreed
    rcases Runs.concat_split hlog with ⟨rest, hold, rfl⟩ | ⟨-, hself, -⟩
    · have hkept := h.kept before other rest hold
        fun hmem => hfreed (List.mem_append_left _ hmem)
      have hne : other.regionId ≠ info.regionId := by
        intro heq
        rw [heq] at hkept
        exact hnot other hkept (h.home other (by simp [hold]))
      rw [hagent, RegionTable.lookup_insert_ne _ hne]
      exact hkept
    · cases hself

theorem start (config : DaemonConfig) : HomesKept (.start config) [] := by
  have hagent : (Daemon.start config).fetchAgent = .new RegionTable.new
      (.withRegionTable (.new 0 config.cacheMaxBytes) config.cacheMaxBytes) := by
    unfold Daemon.start
    dsimp only
    split_ifs
    · split <;> rfl
    · rfl
  refine ⟨?_, by simp [ServingDaemon.start], by simp, by simp⟩
  rw [ServingDaemon.start, hagent]
  refine ⟨?_, ?_, ?_⟩
  · intro id info hinfo
    cases hinfo
  · intro id info hinfo
    cases hinfo
  · intro id entry hentry
    cases hentry

section
variable (h : HomesKept s log)
include h

theorem regionAlloc (req : Daemon.RegionAllocRequest)
    (hnumbers : NumbersApart s log (.region (.regionAlloc req))) :
    HomesKept (s.homeStep (.region (.regionAlloc req))).1
      (log ++ (s.homeStep (.region (.regionAlloc req))).2) := by
  simp only [ServingDaemon.homeStep, ServingDaemon.step, Daemon.homeEvents]
  rcases s.daemon.regionAlloc_cases req with ⟨hsame, e, herror⟩ |
    ⟨info, va, placement, hok, hva, hid, hhome, hagent⟩
  · have hout : s.daemon.regionAlloc req = (s.daemon, .error e) := Prod.ext hsame herror
    rw [hout]
    exact h.of_spares (HomesApart.spares h.apart) h.waiting
  · have hnumber : info.regionId = ⟨s.daemon.placer.nextRegionId⟩ := hid.trans hva
    have hevents : ((s.daemon.regionAlloc req).1.fetchAgent.regionTable.lookup
        va.regionId).map HomeEvent.allocated = some (.allocated info) := by
      rw [hagent, ← hid, RegionTable.lookup_insert]
      rfl
    have hout : s.daemon.regionAlloc req = ((s.daemon.regionAlloc req).1, .ok (va, placement)) :=
      Prod.ext rfl hok
    rw [hout]
    simp only [hevents, Option.toList_some]
    apply h.allocated hhome
    · rw [hnumber]
      exact hnumbers.1
    · rw [hnumber]
      exact hnumbers.2
    · exact hagent
    · rfl

theorem regionFree (regionId : RegionId) :
    HomesKept (s.homeStep (.region (.regionFree regionId))).1
      (log ++ (s.homeStep (.region (.regionFree regionId))).2) := by
  simp only [ServingDaemon.homeStep, ServingDaemon.step, Daemon.homeEvents, Daemon.regionFree]
  split_ifs
  · exact h.of_spares (HomesApart.spares h.apart) h.waiting
  cases s.daemon.placer.free regionId with
  | none => exact h.of_spares (HomesApart.spares h.apart) h.waiting
  | some freed => exact h.freed rfl rfl

theorem regionRegisterRemote (info : RegionInfo)
    (hnumbers : NumbersApart s log (.region (.regionRegisterRemote info))) :
    HomesKept (s.homeStep (.region (.regionRegisterRemote info))).1
      (log ++ (s.homeStep (.region (.regionRegisterRemote info))).2) := by
  simp only [ServingDaemon.homeStep, ServingDaemon.step, Daemon.homeEvents,
    Daemon.regionRegisterRemote]
  split_ifs
  · exact h.of_spares (HomesApart.spares h.apart) h.waiting
  · exact h.registered { info with state := .invalid } hnumbers (by simp) rfl rfl

theorem verbReadVa (now : Instant) (va : UbVa) (offset : UInt64) (len : UInt32) :
    HomesKept (s.homeStep (.region (.verbReadVa now va offset len))).1
      (log ++ (s.homeStep (.region (.verbReadVa now va offset len))).2) := by
  obtain ⟨hspares, hfetch⟩ := s.daemon.verbReadVa_spares h.apart now va offset len
  simp only [ServingDaemon.homeStep, ServingDaemon.step, Daemon.homeEvents]
  generalize s.daemon.verbReadVa now va offset len = started at hspares hfetch
  obtain ⟨daemon, result⟩ := started
  cases result with
  | answered result => exact h.of_spares hspares h.waiting
  | fetching region =>
    apply h.of_spares hspares
    intro read hread
    rcases List.mem_append.mp hread with hold | hnew
    · exact h.waiting read hold
    · cases List.mem_singleton.mp hnew
      exact hfetch region rfl

theorem fetched (now : Instant) (i : ℕ) (fullData : List UInt8) :
    HomesKept (s.homeStep (.region (.fetched now i fullData))).1
      (log ++ (s.homeStep (.region (.fetched now i fullData))).2) := by
  simp only [ServingDaemon.homeStep, ServingDaemon.step, Daemon.homeEvents]
  cases hread : s.waiting[i]? with
  | none => exact h.of_spares (HomesApart.spares h.apart) h.waiting
  | some read =>
    have hremote := h.waiting read (List.mem_of_getElem? hread)
    apply h.of_spares
    · rw [Daemon.finishReadVa_fetchAgent]
      exact FetchAgent.Apart.completeFetch h.apart now hremote _ _
    · exact fun other hother => h.waiting other (List.mem_of_mem_eraseIdx hother)

theorem evictLru :
    HomesKept (s.homeStep .evictLru).1 (log ++ (s.homeStep .evictLru).2) := by
  have hspares : s.daemon.fetchAgent.Spares (Registered log) s.daemon.evictLru.fetchAgent := by
    unfold Daemon.evictLru
    split
    · exact HomesApart.spares h.apart
    · next cachePool regionTable hevict => exact HomesApart.evictLru h.apart hevict
  exact h.of_spares hspares h.waiting

theorem step (input : HomeInput) (hnumbers : NumbersApart s log input) :
    HomesKept (s.homeStep input).1 (log ++ (s.homeStep input).2) := by
  cases input with
  | evictLru => exact h.evictLru
  | region input =>
    cases input with
    | regionAlloc req => exact h.regionAlloc req hnumbers
    | regionFree regionId => exact h.regionFree regionId
    | regionRegisterRemote info => exact h.regionRegisterRemote info hnumbers
    | regionInvalidate regionId newEpoch =>
      have hspares : s.daemon.fetchAgent.Spares (Registered log)
          (s.daemon.regionInvalidate regionId newEpoch).1.fetchAgent := by
        unfold Daemon.regionInvalidate
        split_ifs
        · exact HomesApart.spares h.apart
        · exact FetchAgent.Apart.receiveInvalidate h.apart regionId newEpoch
      exact h.of_spares hspares h.waiting
    | verbReadVa now va offset len => exact h.verbReadVa now va offset len
    | fetched now i fullData => exact h.fetched now i fullData
    | fetchFailed i =>
      have hspares : s.daemon.fetchAgent.Spares (Registered log) s.daemon.fetchAgent :=
        HomesApart.spares h.apart
      exact h.of_spares hspares
        fun other hother => h.waiting other (List.mem_of_mem_eraseIdx hother)

end

end HomesKept

/-- While the numbers stay apart, a region that an allocation has recorded keeps
its entry until it is freed. -/
theorem home_region_stays_home (config : DaemonConfig) {inputs : List HomeInput}
    (hinputs : Runs.Meets ServingDaemon.homeStep NumbersApart (.start config) [] inputs) :
    let out := Runs.run ServingDaemon.homeStep (.start config) inputs
    ∀ before info after, out.2 = before ++ .allocated info :: after →
      .freed info.regionId ∉ after → info.state = .home ∧
        out.1.daemon.fetchAgent.regionTable.lookup info.regionId = some info := by
  intro out before info after hlog hfreed
  have hkept := Runs.run_invariant (I := HomesKept)
    (fun s log input h hi => h.step input hi) (HomesKept.start config) hinputs
  rw [List.nil_append] at hkept
  exact ⟨hkept.home info (hlog ▸ by simp), hkept.kept before info after hlog hfreed⟩

/-- The home region of the default daemon after its first allocation. -/
def firstHome : RegionInfo := ⟨⟨1⟩, 1, 0, 1, 0, 4096, 0, .home⟩

/-- A region is allocated, a region of another number is registered and read, and
its fetch fails. -/
def apartNumbers : List HomeInput :=
  [.region allocRegion, .region (.regionRegisterRemote remoteRegion),
    .region (.verbReadVa 0 (UbVa.new ⟨7⟩ 0) 0 16), .region (.fetchFailed 0), .evictLru]

theorem home_region_stays_home_apart :
    (Runs.run ServingDaemon.homeStep (.start defaultConfig)
      apartNumbers).1.daemon.fetchAgent.regionTable.lookup ⟨1⟩ = some firstHome := by
  have hinputs : Runs.Meets ServingDaemon.homeStep NumbersApart (.start defaultConfig) []
      apartNumbers := by
    refine ⟨⟨by simp [Registered], by simp⟩, ?_, trivial, trivial, trivial, trivial⟩
    intro home hhome
    cases hhome
  have hrun := home_region_stays_home defaultConfig hinputs [] firstHome [.registered ⟨7⟩] rfl
    (by decide)
  exact hrun.2

/-- Another node's first region is registered under the number of the own first
region: the home region turns Invalid and points to the other node. -/
theorem registration_replaces_home :
    let out := Runs.run ServingDaemon.homeStep (.start defaultConfig)
      [.region allocRegion, .region (.regionRegisterRemote ⟨⟨1⟩, 2, 0, 1, 0, 64, 0, .invalid⟩)]
    out.2 = [.allocated firstHome, .registered ⟨1⟩] ∧
      out.1.daemon.fetchAgent.regionTable.lookup ⟨1⟩ =
        some ⟨⟨1⟩, 2, 0, 1, 0, 64, 0, .invalid⟩ :=
  ⟨rfl, rfl⟩

end UniBus.Managed
