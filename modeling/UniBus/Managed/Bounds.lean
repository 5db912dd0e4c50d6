import UniBus.Managed.VaRequests

/-!
# The bounds of a region

The bounds property says which bytes a request on a virtual address may use:
those of the region at its home and those of the copy of the region in the cache
pool. The main result says exactly which requests keep to it.
-/
namespace UniBus.Managed

open DataPlane

/-- The bytes `[pos, pos + count)` lie in `[base, base + len)`. -/
def Inside (base len pos count : ℕ) : Prop :=
  count = 0 ∨ base ≤ pos ∧ pos + count ≤ base + len

namespace Site

variable (s : Site) (va : UbVa)

/-- The addressed region occupies `[base, base + len)` of a device: at its home, or
in the cache pool. -/
inductive Stored : Option UInt16 → DeviceRef → ℕ → ℕ → Prop
  | home {region : RegionInfo} {entry : MrEntry} (hregion : s.Knows va region)
      (hstate : region.state = .home)
      (hentry : s.daemon.host.mrTable.lookup region.mrHandle = some entry) :
      Stored none entry.device region.baseOffset.toNat region.len.toNat
  | copy {start len : ℕ} {entry : MrEntry}
      (hranges : s.daemon.fetchAgent.cachePool.ranges va.regionId = some (start, len))
      (hentry : s.daemon.host.mrTable.lookup (s.daemon.poolMrHandle.getD 0) = some entry) :
      Stored none entry.device start len
  | remote {region : RegionInfo} {verb : Verb} {offset : UInt64} {node : UInt16}
      {entry : MrEntry} (hregion : s.Knows va region) (hstate : region.state ≠ .home)
      (hreached : s.reached verb (s.daemon.homeAddr region offset) = some (node, entry)) :
      Stored (some node) entry.device region.baseOffset.toNat region.len.toNat

def RegionByte (node : Option UInt16) (device : DeviceRef) (i : ℕ) : Prop :=
  ∃ base len, s.Stored va node device base len ∧ i ∈ Set.Ico base (base + len)

/-- Memories of the same sizes with the same bytes of the addressed region. -/
structure SameBytes (m : Option UInt16 → Memory) : Prop where
  sizes : s.SameSizes m
  bytes : ∀ node device i, s.RegionByte va node device i →
    (m node device).data[i]? = (s.memory node device).data[i]?

/-- The request is for the bytes from `pos` on of a device where the region
occupies `[base, base + len)`. A remote write is for the bytes it asks for and
for those that the home node writes. -/
inductive Names : VaRequest → ℕ → ℕ → ℕ → Prop
  | home {region : RegionInfo} {req : VaRequest} (hregion : s.Knows va region)
      (hstate : region.state = .home) :
      Names req region.baseOffset.toNat region.len.toNat
        (region.baseOffset + (va.offset + req.offset)).toNat
  | copy {region : RegionInfo} {cached : CacheEntry} {offset : UInt64} {len : UInt32}
      (hregion : s.Knows va region) (hhits : s.Hits va region cached) :
      Names (.read offset len) cached.poolOffset.toNat cached.len.toNat
        (cached.poolOffset + (va.offset + offset)).toNat
  | fetched {region : RegionInfo} {node : UInt16} {entry : MrEntry} {offset : UInt64}
      {len : UInt32} (hregion : s.Knows va region) (hstate : region.state ≠ .home)
      (hmiss : ∀ cached, ¬ s.Hits va region cached)
      (hreached : s.reached .readReq (s.daemon.homeAddr region region.baseOffset) =
        some (node, entry)) :
      Names (.read offset len) region.baseOffset.toNat region.len.toNat
        ((deviceOffset entry (s.daemon.homeAddr region region.baseOffset)).toNat +
          (va.offset + offset).toNat)
  | remote {region : RegionInfo} {offset : UInt64} {data : List UInt8}
      (hregion : s.Knows va region) (hstate : region.state ≠ .home) :
      Names (.write offset data) region.baseOffset.toNat region.len.toNat
        (region.baseOffset + (va.offset + offset)).toNat
  | written {region : RegionInfo} {node : UInt16} {entry : MrEntry} {offset : UInt64}
      {data : List UInt8} (hregion : s.Knows va region) (hstate : region.state ≠ .home)
      (hreached : s.reached .write
        (s.daemon.homeAddr region (region.baseOffset + (va.offset + offset))) =
          some (node, entry))
      (hfits : (deviceOffset entry
        (s.daemon.homeAddr region (region.baseOffset + (va.offset + offset)))).toNat +
          data.length ≤ ((s.peers node).memory entry.device).capacity) :
      Names (.write offset data) region.baseOffset.toNat region.len.toNat
        (deviceOffset entry
          (s.daemon.homeAddr region (region.baseOffset + (va.offset + offset)))).toNat

def AllInside (req : VaRequest) : Prop :=
  ∀ base len pos, s.Names va req base len pos → Inside base len pos req.count

/-- The request passes all checks and is for bytes outside the region. -/
def Overruns (req : VaRequest) : Prop := s.Accepts va req ∧ ¬ s.AllInside va req

/-- A request that is not answered with an error is for bytes of the region only.
Other bytes neither influence the answer nor change; what a read caches is the
copy of the region afterwards. -/
structure Bounded (now later : Instant) (opaqueId : UInt64) (req : VaRequest) : Prop where
  within : ∀ value, (s.run now later opaqueId va req).2 = .ok value → s.AllInside va req
  unrevealed : ∀ m, s.SameBytes va m →
    ((s.setMemory m).run now later opaqueId va req).2 = (s.run now later opaqueId va req).2
  unchanged : ∀ node device i, ¬ s.RegionByte va node device i →
    ¬ (s.run now later opaqueId va req).1.RegionByte va node device i →
    ((s.run now later opaqueId va req).1.memory node device).data[i]? =
      (s.memory node device).data[i]?

end Site

theorem Inside.mem {base len pos count i : ℕ} (h : Inside base len pos count)
    (hi : i ∈ Set.Ico pos (pos + count)) : i ∈ Set.Ico base (base + len) := by
  obtain ⟨hlow, hhigh⟩ := hi
  rcases h with hzero | ⟨hbase, hend⟩
  · omega
  · exact ⟨by omega, by omega⟩

theorem overwrite_outside {h : Host} {device : DeviceRef} {pos : ℕ} {data : List UInt8}
    (hfits : pos + data.length ≤ (h.memory device).capacity) {device' : DeviceRef} {i : ℕ}
    (hi : device' = device → i ∉ Set.Ico pos (pos + data.length)) :
    ((overwrite h device pos data).memory device').data[i]? = (h.memory device').data[i]? := by
  simp only [overwrite]
  by_cases hdevice : device' = device
  · subst hdevice
    have hout := hi rfl
    rw [Set.mem_Ico] at hout
    rw [Function.update_self]
    exact Bytes.getElem?_splice_outside hfits (by omega)
  · rw [Function.update_of_ne hdevice]

namespace Site

variable {s : Site} {va : UbVa} {region : RegionInfo}

theorem SameBytes.slice_eq {m : Option UInt16 → Memory} (h : s.SameBytes va m)
    {node : Option UInt16} {device : DeviceRef} {base len pos count : ℕ}
    (hstored : s.Stored va node device base len) (hin : Inside base len pos count) :
    Bytes.slice (m node device).data pos count =
      Bytes.slice (s.memory node device).data pos count :=
  Bytes.slice_congr fun i hlow hhigh =>
    h.bytes node device i ⟨base, len, hstored, hin.mem ⟨hlow, hhigh⟩⟩

theorem overwrite_outside_region {node : Option UInt16} {h : Host} {device : DeviceRef}
    {base len pos : ℕ} {data : List UInt8} (hfits : pos + data.length ≤ (h.memory device).capacity)
    (hstored : s.Stored va node device base len) (hin : Inside base len pos data.length)
    {device' : DeviceRef} {i : ℕ} (hi : ¬ s.RegionByte va node device' i) :
    ((overwrite h device pos data).memory device').data[i]? = (h.memory device').data[i]? := by
  apply overwrite_outside hfits
  rintro rfl hmem
  exact hi ⟨base, len, hstored, hin.mem hmem⟩

/-! ## The paths -/

section
variable (now later : Instant) (opaqueId : UInt64) {offset : UInt64} {len : UInt32}
  {data : List UInt8} {entry : MrEntry}

theorem bounded_of_refuses {req : VaRequest} (h : s.Refuses now later opaqueId va req) :
    s.Bounded va now later opaqueId req := by
  obtain ⟨e, hrefused⟩ := h
  have hself : (s.run now later opaqueId va req).2 = .error e ∧
      (s.run now later opaqueId va req).1.memory = s.memory :=
    hrefused s.memory fun _ _ => rfl
  refine ⟨?_, ?_, ?_⟩
  · intro value hok
    rw [hself.1] at hok
    cases hok
  · intro m hsame
    rw [hself.1, (hrefused m hsame.sizes).1]
  · intro node device i _ _
    rw [hself.2]

theorem AtHome.bounded_read (h : s.AtHome va (.read offset len) region entry)
    (hin : s.AllInside va (.read offset len)) :
    s.Bounded va now later opaqueId (.read offset len) := by
  have hrun := h.run_read now later opaqueId
  refine ⟨fun _ _ => hin, ?_, ?_⟩
  · intro m hsame
    rw [hrun, (h.setMemory hsame.sizes).run_read now later opaqueId]
    have hstored : s.Stored va none entry.device region.baseOffset.toNat region.len.toNat :=
      .home h.known h.home h.listed
    exact congrArg Except.ok (hsame.slice_eq hstored (hin _ _ _ (.home h.known h.home)))
  · intro node device i _ _
    rw [hrun]

theorem AtHome.bounded_write (h : s.AtHome va (.write offset data) region entry)
    (hin : s.AllInside va (.write offset data)) :
    s.Bounded va now later opaqueId (.write offset data) := by
  have hrun := h.run_write now later opaqueId
  refine ⟨fun _ _ => hin, ?_, ?_⟩
  · intro m hsame
    rw [hrun, (h.setMemory hsame.sizes).run_write now later opaqueId]
  · intro node device i hbyte _
    rw [hrun]
    cases node with
    | some node => rfl
    | none =>
      exact overwrite_outside_region h.fits (.home h.known h.home h.listed)
        (hin _ _ _ (.home h.known h.home)) hbyte

theorem InCopy.bounded {cached : CacheEntry} (h : s.InCopy va offset len region cached entry)
    (hin : s.AllInside va (.read offset len)) :
    s.Bounded va now later opaqueId (.read offset len) := by
  obtain ⟨fetchAgent, hrun⟩ := h.run now later opaqueId
  refine ⟨fun _ _ => hin, ?_, ?_⟩
  · intro m hsame
    have hranges : s.daemon.fetchAgent.cachePool.ranges va.regionId =
        some (cached.poolOffset.toNat, cached.len.toNat) := by
      obtain ⟨epoch, -, hcached, -⟩ := h.hits
      rw [CachePool.ranges, hcached]
      rfl
    obtain ⟨fetchAgent', hrun'⟩ := (h.setMemory hsame.sizes).run now later opaqueId
    rw [hrun, hrun']
    exact congrArg Except.ok
      (hsame.slice_eq (.copy hranges h.listed) (hin _ _ _ (.copy h.known h.hits)))
  · intro node device i _ _
    rw [hrun, memory_withAgent]

theorem ByFetch.fetchedPart_eq {node : UInt16} (h : s.ByFetch va region node entry)
    (hin : s.AllInside va (.read offset len)) {m : Option UInt16 → Memory}
    (hsame : s.SameBytes va m) :
    Daemon.fetchedPart ((s.setMemory m).fetchedBytes region node entry) (va.offset + offset) len =
      Daemon.fetchedPart (s.fetchedBytes region node entry) (va.offset + offset) len := by
  have hlength := (h.setMemory hsame.sizes).length_fetchedBytes.trans h.length_fetchedBytes.symm
  refine fetchedPart_congr hlength _ _ fun i hi => ?_
  rw [fetchedBytes, fetchedBytes, Bytes.getElem?_slice, Bytes.getElem?_slice]
  split_ifs
  · apply hsame.bytes (some node) entry.device
    refine ⟨_, _, .remote h.known h.remote h.reached,
      (hin _ _ _ (.fetched h.known h.remote h.misses h.reached)).mem ?_⟩
    refine ⟨Nat.add_le_add_left hi.1 _, ?_⟩
    rw [Nat.add_assoc]
    exact Nat.add_lt_add_left hi.2 _
  · rfl

theorem ByFetch.bounded {node : UInt16} (h : s.ByFetch va region node entry)
    (hin : s.AllInside va (.read offset len)) :
    s.Bounded va now later opaqueId (.read offset len) := by
  obtain ⟨t, state, hmemory, hrun⟩ := h.run now later opaqueId
  refine ⟨fun _ _ => hin, ?_, ?_⟩
  · intro m hsame
    obtain ⟨t', state', -, hrun'⟩ := (h.setMemory hsame.sizes).run now later opaqueId
    rw [hrun, hrun']
    exact congrArg Except.ok (h.fetchedPart_eq hin hsame)
  · intro node' device i _ hbyte
    rw [hrun] at hbyte ⊢
    rw [← hmemory]
    cases node' with
    | some node' => rfl
    | none =>
      rcases finishReadVa_cases t.daemon later { region with state, regionId := va.regionId }
          (va.offset + offset) len (s.fetchedBytes region node entry) with
        hhost | ⟨start, pool, hranges, hpool, hroom, hhost⟩
      · simp only [memory, hhost]
      · simp only [memory, hhost]
        -- at most as many bytes are stored as the copy is long
        have hle : region.len.toUInt32.toNat ≤ region.len.toNat := by
          rw [UInt64.toNat_toUInt32]
          exact Nat.mod_le _ _
        apply overwrite_outside hroom
        rintro rfl hmem
        rw [h.length_fetchedBytes, Set.mem_Ico] at hmem
        exact hbyte ⟨start, region.len.toNat, .copy hranges hpool, hmem.1, by omega⟩

theorem ByFrame.bounded {cached : MrCacheEntry} (h : s.ByFrame va offset data region cached)
    (hin : s.AllInside va (.write offset data)) :
    s.Bounded va now later opaqueId (.write offset data) := by
  have hrun := h.run now later opaqueId
  refine ⟨fun _ _ => hin, ?_, ?_⟩
  · intro m _
    rw [hrun, (h.setMemory m).run now later opaqueId]
  · intro node device i hbyte _
    rw [hrun]
    cases node with
    | none => rfl
    | some node =>
      by_cases hnode : node = cached.ownerNode
      · subst hnode
        simp only [memory, Function.update_self]
        cases hadmitted : Request.admitted (s.peers cached.ownerNode)
            (Daemon.remoteExt .write cached
              (s.daemon.homeAddr region (region.baseOffset + (va.offset + offset))) 0) .write with
        | none => rw [memory_handleWrite_refused hadmitted]
        | some entry =>
          have hreached : s.reached .write
              (s.daemon.homeAddr region (region.baseOffset + (va.offset + offset))) =
                some (cached.ownerNode, entry) := by
            rw [reached, h.found, Option.bind_some, if_pos h.linked, hadmitted]
            rfl
          rw [memory_handleWrite hadmitted]
          split_ifs with hfits
          · exact overwrite_outside_region hfits (.remote h.known h.remote hreached)
              (hin _ _ _ (.written h.known h.remote hreached hfits)) hbyte
          · rfl
      · simp only [memory, Function.update_of_ne hnode]

end

end Site

/-- A request on a virtual address keeps to the bytes of its region exactly when it
does not pass all checks with bytes outside the region. -/
theorem bounded_iff_not_overruns (s : Site) (now later : Instant) (opaqueId : UInt64) (va : UbVa)
    (req : VaRequest) : s.Bounded va now later opaqueId req ↔ ¬ s.Overruns va req := by
  constructor
  · rintro hbounded ⟨haccepts, hout⟩
    obtain ⟨value, hok⟩ := Site.exists_ok_of_accepts now later opaqueId haccepts
    exact hout (hbounded.within value hok)
  · intro hno
    by_cases haccepts : s.Accepts va req
    · have hin : s.AllInside va req := by
        by_contra hout
        exact hno ⟨haccepts, hout⟩
      cases haccepts with
      | home h =>
        cases req with
        | read offset len => exact h.bounded_read now later opaqueId hin
        | write offset data => exact h.bounded_write now later opaqueId hin
      | copy h => exact h.bounded now later opaqueId hin
      | fetch h => exact h.bounded now later opaqueId hin
      | frame h => exact h.bounded now later opaqueId hin
    · exact Site.bounded_of_refuses now later opaqueId
        (Site.refuses_of_not_accepts now later opaqueId haccepts)

def eightBytes (id baseOffset : UInt64) : RegionInfo := ⟨⟨id⟩, 1, 0, 1, baseOffset, 8, 0, .home⟩

/-- A node with two regions side by side on a device of 16 bytes. -/
def neighbours : Site where
  daemon :=
    { podId := 1, nodeId := 1, enabled := true
      host :=
        { mrTable :=
            { MrTable.new 1 1 with
              entries := AList.insert 1
                ⟨1, 0, 0, 16, MrPerms.read.union .write, UbAddr.new 1 1 0 0 0,
                  UbAddr.offset_origin⟩ ∅ }
          memory := fun _ => ⟨.memory, 0, List.replicate 16 7⟩
          jettyTable := JettyTable.new 1 16 16 }
      mrCache := MrCacheTable.new
      placer := .new (.new ⟨1, 3 / 10, 1 / 2, 1 / 5⟩)
      fetchAgent := .new ((RegionTable.new.insert (eightBytes 1 0)).insert (eightBytes 2 8))
        (.new (.new 0 0) 0)
      coherence := .new 5000
      poolMrHandle := none }
  peers := fun _ => ⟨MrTable.new 1 1, fun _ => ⟨.memory, 0, []⟩, JettyTable.new 1 16 16⟩
  linked := fun _ => false

/-- A write behind the end of the first region changes the second one, and a read of
the second region with an offset that wraps around returns a byte of the first. -/
theorem neighbour_written_and_read :
    let written := neighbours.run 0 0 0 (UbVa.new ⟨1⟩ 0) (.write 8 [255])
    let read := neighbours.run 0 0 0 (UbVa.new ⟨2⟩ 0) (.read 0xFFFFFFFFFFFFFFFF 1)
    (written.2.toOption = some [] ∧ (written.1.memory none 0).data[8]? = some 255 ∧
        ¬ neighbours.Bounded (UbVa.new ⟨1⟩ 0) 0 0 0 (.write 8 [255])) ∧
      read.2.toOption = some [7] ∧
        ¬ neighbours.Bounded (UbVa.new ⟨2⟩ 0) 0 0 0 (.read 0xFFFFFFFFFFFFFFFF 1) := by
  have hfirst : neighbours.Knows (UbVa.new ⟨1⟩ 0) (eightBytes 1 0) := by
    unfold Site.Knows
    decide
  have hsecond : neighbours.Knows (UbVa.new ⟨2⟩ 0) (eightBytes 2 8) := by
    unfold Site.Knows
    decide
  refine ⟨⟨by decide, by decide, ?_⟩, by decide, ?_⟩
  · intro hbounded
    have hin := hbounded.within [] rfl _ _ _ (.home hfirst rfl)
    revert hin
    unfold Inside
    decide
  · intro hbounded
    have hin := hbounded.within [7] rfl _ _ _ (.home hsecond rfl)
    revert hin
    unfold Inside
    decide

end UniBus.Managed
