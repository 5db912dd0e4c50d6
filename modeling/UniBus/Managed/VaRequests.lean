import UniBus.DataPlane.Isolation
import UniBus.Managed.Sharing

/-!
# Requests on virtual addresses

A read or a write of a virtual address, from the daemon that receives it to the
node that holds the bytes and back, with nothing in between. A request takes one
of four paths: the home device of the region, the copy in the cache pool, a
fetch from the home node, or a frame to the home node. Each path has its own
checks; a request that fails one of them is answered with an error and changes
no byte.
-/
namespace UniBus.Managed

open DataPlane Wire

/-- A request on a virtual address. -/
inductive VaRequest
  | read (offset : UInt64) (len : UInt32)
  | write (offset : UInt64) (data : List UInt8)
  deriving DecidableEq, Repr

namespace VaRequest

def offset : VaRequest → UInt64
  | read offset _ => offset
  | write offset _ => offset

def count : VaRequest → ℕ
  | read _ len => len.toNat
  | write _ data => data.length

end VaRequest

/-- A daemon, the hosts of the other nodes and the nodes it has a session with. -/
structure Site where
  daemon : Daemon
  peers : UInt16 → Host
  linked : UInt16 → Bool

namespace Site

variable (s : Site)

/-- A remote read with its service at the owner of the memory region. An error
response does not reach the waiting call. -/
def ubReadRemote (addr : UbAddr) (len : UInt32) (opaqueId : UInt64) :
    Site × Except UbError (List UInt8) :=
  match s.daemon.ubReadRemote addr len opaqueId with
  | .error e => (s, .error e)
  | .ok (dst, ext, payload) =>
    if s.linked dst = false then (s, .error .linkDown)
    else
      let handled := handleReadReq (s.peers dst) payload ext
      ({ s with peers := Function.update s.peers dst handled.host },
        handled.result.mapError fun _ => .timeout)

/-- The rest of a read after the remote read of the whole region. -/
def finishRead (later : Instant) (va : UbVa) (offset : UInt64) (len : UInt32)
    (region : RegionInfo) :
    Site × Except UbError (List UInt8) → Site × Except String (List UInt8)
  | (s, .error e) => (s, .error e.display)
  | (s, .ok fullData) =>
    let (d, data) := s.daemon.finishReadVa later { region with regionId := va.regionId }
      (va.offset + offset) len fullData
    ({ s with daemon := d }, .ok data)

/-- A read of a virtual address up to its answer. -/
def readVa (now later : Instant) (opaqueId : UInt64) (va : UbVa) (offset : UInt64)
    (len : UInt32) : Site × Except String (List UInt8) :=
  match s.daemon.verbReadVa now va offset len with
  | (d, .answered result) => ({ s with daemon := d }, result.map Prod.fst)
  | (d, .fetching region) =>
    finishRead later va offset len region
      (ubReadRemote { s with daemon := d } (d.homeAddr region region.baseOffset)
        region.len.toUInt32 opaqueId)

/-- A write of a virtual address with its service at the home node; the answer
does not wait for it. -/
def writeVa (va : UbVa) (offset : UInt64) (data : List UInt8) :
    Site × Except String (List UInt8) :=
  match s.daemon.verbWriteVa va offset data with
  | (d, .answered result) => ({ s with daemon := d }, result.map fun _ => [])
  | (d, .sending dst ext data) =>
    let s := { s with daemon := d }
    if s.linked dst = false then (s, .error UbError.linkDown.display)
    else
      ({ s with
          peers := Function.update s.peers dst (handleWrite (s.peers dst) data ext).host },
        .ok [])

def run (now later : Instant) (opaqueId : UInt64) (va : UbVa) :
    VaRequest → Site × Except String (List UInt8)
  | .read offset len => s.readVa now later opaqueId va offset len
  | .write offset data => s.writeVa va offset data

/-- The devices of a node; no node is the own one. -/
def memory : Option UInt16 → Memory
  | none => s.daemon.host.memory
  | some node => (s.peers node).memory

def setMemory (m : Option UInt16 → Memory) : Site :=
  { s with
    daemon := { s.daemon with host := { s.daemon.host with memory := m none } }
    peers := fun node => { s.peers node with memory := m (some node) } }

def withAgent (fetchAgent : FetchAgent) : Site :=
  { s with daemon := { s.daemon with fetchAgent } }

/-- The owner and the memory region that a frame for an address gets to. -/
def reached (verb : Verb) (addr : UbAddr) : Option (UInt16 × MrEntry) :=
  (s.daemon.mrCache.lookupByAddr addr).bind fun cached =>
    if s.linked cached.ownerNode then
      (Request.admitted (s.peers cached.ownerNode) (Daemon.remoteExt verb cached addr 0) verb).map
        fun entry => (cached.ownerNode, entry)
    else none

def Knows (va : UbVa) (region : RegionInfo) : Prop :=
  s.daemon.fetchAgent.regionTable.lookup va.regionId = some region

/-- The region has a copy that is not older than the region's epoch. -/
def Hits (va : UbVa) (region : RegionInfo) (cached : CacheEntry) : Prop :=
  ∃ epoch, region.state = .shared epoch ∧
    s.daemon.fetchAgent.cachePool.entries.lookup va.regionId = some cached ∧
    ¬ cached.epoch < epoch

end Site

/-! ## The checks of each path -/

namespace Site

variable (s : Site) (va : UbVa)

/-- A request for the bytes of a home device. -/
structure AtHome (req : VaRequest) (region : RegionInfo) (entry : MrEntry) : Prop where
  enabled : ¬ s.daemon.enabled = false
  known : s.Knows va region
  home : region.state = .home
  listed : s.daemon.host.mrTable.lookup region.mrHandle = some entry
  fits : (region.baseOffset + (va.offset + req.offset)).toNat + req.count ≤
    (s.daemon.host.memory entry.device).capacity

/-- A read of the cached copy. The check against its end is made on sums that wrap. -/
structure InCopy (offset : UInt64) (len : UInt32) (region : RegionInfo) (cached : CacheEntry)
    (entry : MrEntry) : Prop where
  enabled : ¬ s.daemon.enabled = false
  known : s.Knows va region
  hits : s.Hits va region cached
  checked : ¬ cached.poolOffset + (va.offset + offset) + UInt64.ofNat len.toNat >
    cached.poolOffset + cached.len
  listed : s.daemon.host.mrTable.lookup (s.daemon.poolMrHandle.getD 0) = some entry
  fits : (cached.poolOffset + (va.offset + offset)).toNat + len.toNat ≤
    (s.daemon.host.memory entry.device).capacity

/-- A read that fetches the region from its home node. -/
structure ByFetch (region : RegionInfo) (node : UInt16) (entry : MrEntry) : Prop where
  enabled : ¬ s.daemon.enabled = false
  known : s.Knows va region
  remote : region.state ≠ .home
  misses : ∀ cached, ¬ s.Hits va region cached
  reached : s.reached .readReq (s.daemon.homeAddr region region.baseOffset) = some (node, entry)
  fits : (deviceOffset entry (s.daemon.homeAddr region region.baseOffset)).toNat +
    region.len.toUInt32.toNat ≤ ((s.peers node).memory entry.device).capacity

/-- A write that is sent to the home node. -/
structure ByFrame (offset : UInt64) (data : List UInt8) (region : RegionInfo)
    (cached : MrCacheEntry) : Prop where
  enabled : ¬ s.daemon.enabled = false
  known : s.Knows va region
  remote : region.state ≠ .home
  size : ¬ data.length > Daemon.maxPayloadSize
  found : s.daemon.mrCache.lookupByAddr
    (s.daemon.homeAddr region (region.baseOffset + (va.offset + offset))) = some cached
  linked : s.linked cached.ownerNode = true

/-- The request passes all checks there are on its path. -/
inductive Accepts : VaRequest → Prop
  | home {req : VaRequest} {region : RegionInfo} {entry : MrEntry}
      (h : s.AtHome va req region entry) : Accepts req
  | copy {offset : UInt64} {len : UInt32} {region : RegionInfo} {cached : CacheEntry}
      {entry : MrEntry} (h : s.InCopy va offset len region cached entry) :
      Accepts (.read offset len)
  | fetch {offset : UInt64} {len : UInt32} {region : RegionInfo} {node : UInt16}
      {entry : MrEntry} (h : s.ByFetch va region node entry) : Accepts (.read offset len)
  | frame {offset : UInt64} {data : List UInt8} {region : RegionInfo} {cached : MrCacheEntry}
      (h : s.ByFrame va offset data region cached) : Accepts (.write offset data)

/-- Memories whose devices have the sizes they have here. -/
def SameSizes (m : Option UInt16 → Memory) : Prop :=
  ∀ node device, (m node device).capacity = (s.memory node device).capacity

end Site

/-! ## The paths -/

theorem readDevice_eq (d : Daemon) {mrHandle : UInt32} {entry : MrEntry}
    (hentry : d.host.mrTable.lookup mrHandle = some entry) (offset : UInt64) (len : ℕ)
    (missing : String) :
    d.readDevice mrHandle offset len missing =
      if offset.toNat + len ≤ (d.host.memory entry.device).capacity then
        .ok (Bytes.slice (d.host.memory entry.device).data offset.toNat len)
      else .error UbError.addrInvalid.display := by
  simp only [Daemon.readDevice, hentry, Device.read_eq]
  split_ifs <;> rfl

theorem map_fst_map (r : Except String (List UInt8)) (source : Daemon.ReadSource) :
    (r.map fun buf => (buf, source)).map Prod.fst = r := by
  cases r <;> rfl

theorem fetchedPart_congr {xs ys : List UInt8} (hlength : xs.length = ys.length)
    (offsetInRegion : UInt64) (len : UInt32)
    (h : ∀ i ∈ Set.Ico offsetInRegion.toNat (offsetInRegion.toNat + len.toNat), xs[i]? = ys[i]?) :
    Daemon.fetchedPart xs offsetInRegion len = Daemon.fetchedPart ys offsetInRegion len := by
  have hslice : Bytes.slice xs offsetInRegion.toNat len.toNat =
      Bytes.slice ys offsetInRegion.toNat len.toNat :=
    Bytes.slice_congr fun i hlow hhigh => h i ⟨hlow, hhigh⟩
  rw [Daemon.fetchedPart, Daemon.fetchedPart, hlength]
  split_ifs
  · exact hslice
  · rfl

namespace Site

variable {s : Site} {va : UbVa} {region : RegionInfo}

theorem memory_setMemory (m : Option UInt16 → Memory) : (s.setMemory m).memory = m := by
  funext node
  cases node <;> rfl

theorem memory_withAgent (fetchAgent : FetchAgent) :
    (s.withAgent fetchAgent).memory = s.memory := by
  funext node
  cases node <;> rfl

theorem readVa_cacheMiss (now : Instant) (hregion : s.Knows va region)
    (hstate : region.state ≠ .home) (hmiss : ∀ cached, ¬ s.Hits va region cached) :
    ∃ state, (s.daemon.fetchAgent.readVa now va.regionId).2 =
      .cacheMiss { region with state } := by
  simp only [Knows] at hregion
  cases hcases : region.state with
  | home => exact absurd hcases hstate
  | invalid =>
    refine ⟨.invalid, ?_⟩
    simp only [FetchAgent.readVa, hregion, hcases]
    rw [← hcases]
  | shared epoch =>
    cases hlookup : s.daemon.fetchAgent.cachePool.entries.lookup va.regionId with
    | none =>
      refine ⟨.shared epoch, ?_⟩
      simp only [FetchAgent.readVa, hregion, hcases, CachePool.lookup, hlookup, Option.map_none]
      rw [← hcases]
    | some cached =>
      have hold : cached.epoch < epoch := by
        by_contra hfresh
        exact hmiss cached ⟨epoch, hcases, hlookup, hfresh⟩
      refine ⟨.invalid, ?_⟩
      simp only [FetchAgent.readVa, hregion, hcases, CachePool.lookup, hlookup, Option.map_some,
        if_pos hold]

section
variable (now later : Instant) (opaqueId offset : UInt64) (len : UInt32)

theorem readVa_home (henabled : ¬ s.daemon.enabled = false) (hregion : s.Knows va region)
    (hstate : region.state = .home) :
    s.readVa now later opaqueId va offset len =
      (s, s.daemon.readDevice region.mrHandle (region.baseOffset + (va.offset + offset))
        len.toNat "home MR not found") := by
  simp only [Knows] at hregion
  simp only [readVa, Daemon.verbReadVa, if_neg henabled, FetchAgent.readVa, hregion, hstate]
  exact congrArg (Prod.mk s) (map_fst_map _ .home)

theorem readVa_copy (henabled : ¬ s.daemon.enabled = false) (hregion : s.Knows va region)
    {cached : CacheEntry} (hhits : s.Hits va region cached) :
    ∃ fetchAgent, s.readVa now later opaqueId va offset len =
      (s.withAgent fetchAgent,
        if cached.poolOffset + (va.offset + offset) + UInt64.ofNat len.toNat >
            cached.poolOffset + cached.len then .error "read beyond cached region bounds"
        else s.daemon.readDevice (s.daemon.poolMrHandle.getD 0)
          (cached.poolOffset + (va.offset + offset)) len.toNat "pool MR not found") := by
  obtain ⟨epoch, hshared, hcached, hfresh⟩ := hhits
  simp only [Knows] at hregion
  -- the entry is looked up twice
  let pool := (s.daemon.fetchAgent.cachePool.lookup now va.regionId).1
  refine ⟨{ s.daemon.fetchAgent with cachePool := (pool.lookup now va.regionId).1 }, ?_⟩
  simp only [readVa, Daemon.verbReadVa, if_neg henabled, FetchAgent.readVa, hregion, hshared,
    CachePool.lookup, hcached, Option.map_some, if_neg hfresh, Maps.lookup_modify, pool]
  split_ifs with hcheck
  · rfl
  · exact congrArg (Prod.mk _) (map_fst_map _ .cache)

theorem readVa_miss (henabled : ¬ s.daemon.enabled = false) (hregion : s.Knows va region)
    (hstate : region.state ≠ .home) (hmiss : ∀ cached, ¬ s.Hits va region cached) :
    ∃ fetchAgent state, s.readVa now later opaqueId va offset len =
      finishRead later va offset len { region with state }
        ((s.withAgent fetchAgent).ubReadRemote (s.daemon.homeAddr region region.baseOffset)
          region.len.toUInt32 opaqueId) := by
  obtain ⟨state, hpath⟩ := readVa_cacheMiss now hregion hstate hmiss
  refine ⟨(s.daemon.fetchAgent.readVa now va.regionId).1, state, ?_⟩
  have hread : s.daemon.fetchAgent.readVa now va.regionId =
      ((s.daemon.fetchAgent.readVa now va.regionId).1, .cacheMiss { region with state }) :=
    Prod.ext rfl hpath
  simp only [readVa, Daemon.verbReadVa, if_neg henabled]
  rw [hread]
  rfl

end

/-! ## The remote read -/

section
variable {addr : UbAddr} {node : UInt16} {entry : MrEntry} (len : UInt32) (opaqueId : UInt64)

theorem reached_eq_some {verb : Verb} (h : s.reached verb addr = some (node, entry)) :
    ∃ cached, s.daemon.mrCache.lookupByAddr addr = some cached ∧ cached.ownerNode = node ∧
      s.linked node = true ∧
      Request.admitted (s.peers node) (Daemon.remoteExt verb cached addr 0) verb = some entry := by
  obtain ⟨cached, hcached, h⟩ := Option.bind_eq_some_iff.mp h
  split_ifs at h with hlinked
  obtain ⟨entry', hadmitted, hpair⟩ := Option.map_eq_some_iff.mp h
  cases hpair
  exact ⟨cached, hcached, rfl, hlinked, hadmitted⟩

theorem memory_ubReadRemote : (s.ubReadRemote addr len opaqueId).1.memory = s.memory := by
  unfold ubReadRemote
  split
  · rfl
  · rename_i dst ext payload _
    split_ifs
    · rfl
    · funext node
      cases node with
      | none => rfl
      | some node =>
        by_cases hnode : node = dst
        · subst hnode
          simp only [memory, Function.update_self, memory_handleReadReq]
        · simp only [memory, Function.update_of_ne hnode]

theorem ubReadRemote_withAgent (fetchAgent : FetchAgent) :
    ((s.withAgent fetchAgent).ubReadRemote addr len opaqueId).2 =
      (s.ubReadRemote addr len opaqueId).2 := by
  have hcache : (s.withAgent fetchAgent).daemon.mrCache = s.daemon.mrCache := rfl
  simp only [ubReadRemote, Daemon.ubReadRemote, hcache]
  cases s.daemon.mrCache.lookupByAddr addr with
  | none => rfl
  | some cached =>
    simp only [apply_ite Prod.snd]
    rfl

theorem ubReadRemote_reached (hreached : s.reached .readReq addr = some (node, entry)) :
    (s.ubReadRemote addr len opaqueId).2 =
      if (deviceOffset entry addr).toNat + len.toNat ≤
          ((s.peers node).memory entry.device).capacity then
        .ok (Bytes.slice ((s.peers node).memory entry.device).data (deviceOffset entry addr).toNat
          len.toNat)
      else .error .timeout := by
  obtain ⟨cached, hcached, rfl, hlinked, hadmitted⟩ := reached_eq_some hreached
  obtain ⟨-, t, hacquire⟩ := Request.admitted_eq_some hadmitted
  simp only [Daemon.remoteExt] at hacquire
  simp only [ubReadRemote, Daemon.ubReadRemote, hcached, hlinked, Bool.true_eq_false, if_false,
    handleReadReq, Daemon.remoteExt, hacquire, Memory.read, Device.read_eq, readLen_put]
  split_ifs <;> rfl

theorem ubReadRemote_unreached (hreached : s.reached .readReq addr = none) :
    ∃ e, ∀ m, ((s.setMemory m).ubReadRemote addr len opaqueId).2 = .error e := by
  cases hcached : s.daemon.mrCache.lookupByAddr addr with
  | none =>
    exact ⟨.addrInvalid, fun m => by
      simp [ubReadRemote, Daemon.ubReadRemote, setMemory, hcached]⟩
  | some cached =>
    by_cases hlinked : s.linked cached.ownerNode = true
    · rw [reached, hcached, Option.bind_some, if_pos hlinked, Option.map_eq_none_iff] at hreached
      obtain ⟨r, hacquire⟩ := Request.admitted_eq_none hreached
      simp only [Daemon.remoteExt] at hacquire
      refine ⟨.timeout, fun m => ?_⟩
      simp only [ubReadRemote, Daemon.ubReadRemote, setMemory, hcached, hlinked,
        Bool.true_eq_false, if_false, handleReadReq, Daemon.remoteExt, hacquire]
      rfl
    · rw [Bool.not_eq_true] at hlinked
      exact ⟨.linkDown, fun m => by
        simp [ubReadRemote, Daemon.ubReadRemote, setMemory, hcached, hlinked]⟩

end

theorem finishRead_error {later : Instant} {offset : UInt64} {len : UInt32}
    {remote : Site × Except UbError (List UInt8)} {e : UbError} (h : remote.2 = .error e) :
    finishRead later va offset len region remote = (remote.1, .error e.display) := by
  obtain ⟨s, result⟩ := remote
  cases h
  rfl

theorem finishRead_ok {later : Instant} {offset : UInt64} {len : UInt32}
    {remote : Site × Except UbError (List UInt8)} {fullData : List UInt8}
    (h : remote.2 = .ok fullData) :
    finishRead later va offset len region remote =
      ({ remote.1 with
          daemon := (remote.1.daemon.finishReadVa later { region with regionId := va.regionId }
            (va.offset + offset) len fullData).1 },
        .ok (Daemon.fetchedPart fullData (va.offset + offset) len)) := by
  obtain ⟨s, result⟩ := remote
  cases h
  simp only [finishRead, Daemon.finishReadVa]
  split <;> rfl

section
variable (now later : Instant) (opaqueId offset : UInt64) (len : UInt32)
  (henabled : ¬ s.daemon.enabled = false) (hregion : s.Knows va region)
  (hstate : region.state ≠ .home) (hmiss : ∀ cached, ¬ s.Hits va region cached)
include henabled hregion hstate hmiss

theorem readVa_miss_error {e : UbError}
    (herror : (s.ubReadRemote (s.daemon.homeAddr region region.baseOffset) region.len.toUInt32
      opaqueId).2 = .error e) :
    (s.readVa now later opaqueId va offset len).2 = .error e.display ∧
      (s.readVa now later opaqueId va offset len).1.memory = s.memory := by
  obtain ⟨fetchAgent, state, hread⟩ := readVa_miss now later opaqueId offset len henabled hregion
    hstate hmiss
  rw [← ubReadRemote_withAgent _ _ fetchAgent] at herror
  rw [hread, finishRead_error herror]
  exact ⟨rfl, (memory_ubReadRemote _ _).trans (memory_withAgent fetchAgent)⟩

theorem readVa_miss_ok {fullData : List UInt8}
    (hok : (s.ubReadRemote (s.daemon.homeAddr region region.baseOffset) region.len.toUInt32
      opaqueId).2 = .ok fullData) :
    ∃ (t : Site) (state : RegionState), t.memory = s.memory ∧
      s.readVa now later opaqueId va offset len =
        ({ t with
            daemon := (t.daemon.finishReadVa later
              { region with state, regionId := va.regionId } (va.offset + offset) len fullData).1 },
          .ok (Daemon.fetchedPart fullData (va.offset + offset) len)) := by
  obtain ⟨fetchAgent, state, hread⟩ := readVa_miss now later opaqueId offset len henabled hregion
    hstate hmiss
  rw [← ubReadRemote_withAgent _ _ fetchAgent] at hok
  refine ⟨_, state, ?_, hread.trans (finishRead_ok hok)⟩
  exact (memory_ubReadRemote _ _).trans (memory_withAgent fetchAgent)

end

/-! ## Writes -/

section
variable (offset : UInt64) (data : List UInt8)

theorem writeVa_home (henabled : ¬ s.daemon.enabled = false) (hregion : s.Knows va region)
    (hstate : region.state = .home) {entry : MrEntry}
    (hentry : s.daemon.host.mrTable.lookup region.mrHandle = some entry) :
    s.writeVa va offset data =
      if (region.baseOffset + (va.offset + offset)).toNat + data.length ≤
          (s.daemon.host.memory entry.device).capacity then
        ({ s with
            daemon :=
              { s.daemon with
                host := overwrite s.daemon.host entry.device
                  (region.baseOffset + (va.offset + offset)).toNat data } },
          .ok [])
      else (s, .error UbError.addrInvalid.display) := by
  simp only [Knows] at hregion
  simp only [writeVa, Daemon.verbWriteVa, if_neg henabled, hregion, hstate, hentry,
    Device.write_eq, UInt64.add_assoc]
  split_ifs <;> rfl

/-- The state of a region that is not at home here does not matter for a write. -/
theorem verbWriteVa_remote (henabled : ¬ s.daemon.enabled = false) (hregion : s.Knows va region)
    (hstate : region.state ≠ .home) :
    s.daemon.verbWriteVa va offset data = (s.daemon,
      (s.daemon.ubWriteRemote
        (s.daemon.homeAddr region (region.baseOffset + (va.offset + offset))) data).casesOn
        (fun e => .answered (.error e.display)) fun frame => .sending frame.1 frame.2 data) := by
  simp only [Knows] at hregion
  simp only [Daemon.verbWriteVa, if_neg henabled, hregion, UInt64.add_assoc]
  cases hcases : region.state with
  | home => exact absurd hcases hstate
  | shared epoch =>
    dsimp only
    cases s.daemon.ubWriteRemote
      (s.daemon.homeAddr region (region.baseOffset + (va.offset + offset))) data <;> rfl
  | invalid =>
    dsimp only
    cases s.daemon.ubWriteRemote
      (s.daemon.homeAddr region (region.baseOffset + (va.offset + offset))) data <;> rfl

theorem writeVa_remote (henabled : ¬ s.daemon.enabled = false) (hregion : s.Knows va region)
    (hstate : region.state ≠ .home) (hsize : ¬ data.length > Daemon.maxPayloadSize)
    {cached : MrCacheEntry} (hcached : s.daemon.mrCache.lookupByAddr
      (s.daemon.homeAddr region (region.baseOffset + (va.offset + offset))) = some cached)
    (hlinked : s.linked cached.ownerNode = true) :
    s.writeVa va offset data =
      ({ s with
          peers := Function.update s.peers cached.ownerNode
            (handleWrite (s.peers cached.ownerNode) data (Daemon.remoteExt .write cached
              (s.daemon.homeAddr region (region.baseOffset + (va.offset + offset))) 0)).host },
        .ok []) := by
  simp only [writeVa, verbWriteVa_remote offset data henabled hregion hstate,
    Daemon.ubWriteRemote, if_neg hsize, hcached, hlinked, Bool.true_eq_false, if_false]

end

theorem memory_handleWrite {h : Host} {ext : DataExtHeader} {entry : MrEntry}
    (hadmitted : Request.admitted h ext .write = some entry) (payload : List UInt8) :
    (handleWrite h payload ext).host.memory =
      if (deviceOffset entry ext.ubAddr).toNat + payload.length ≤
          (h.memory entry.device).capacity then
        (overwrite h entry.device (deviceOffset entry ext.ubAddr).toNat payload).memory
      else h.memory := by
  obtain ⟨-, t, hacquire⟩ := Request.admitted_eq_some hadmitted
  simp only [handleWrite, hacquire, Memory.write, Device.write_eq]
  split_ifs <;> rfl

theorem memory_handleWrite_refused {h : Host} {ext : DataExtHeader}
    (hadmitted : Request.admitted h ext .write = none) (payload : List UInt8) :
    (handleWrite h payload ext).host.memory = h.memory := by
  obtain ⟨r, hacquire⟩ := Request.admitted_eq_none hadmitted
  simp only [handleWrite, hacquire]

theorem storeFetched_cases (d : Daemon) (poolOffset : UInt64) (fullData : List UInt8) :
    d.storeFetched poolOffset fullData = d ∨
      ∃ entry, d.host.mrTable.lookup (d.poolMrHandle.getD 0) = some entry ∧
        poolOffset.toNat + fullData.length ≤ (d.host.memory entry.device).capacity ∧
        d.storeFetched poolOffset fullData =
          { d with host := overwrite d.host entry.device poolOffset.toNat fullData } := by
  cases hhandle : d.poolMrHandle with
  | none => exact Or.inl (by simp only [Daemon.storeFetched, hhandle, Option.bind_none])
  | some handle =>
    cases hentry : d.host.mrTable.lookup handle with
    | none =>
      exact Or.inl (by simp only [Daemon.storeFetched, hhandle, Option.bind_some, hentry])
    | some entry =>
      simp only [Daemon.storeFetched, hhandle, Option.bind_some, hentry, Device.write_eq]
      split_ifs with hfits
      · exact Or.inr ⟨entry, hentry, hfits, rfl⟩
      · exact Or.inl rfl

/-- The fetched bytes go to the copy that the region has afterwards. -/
theorem finishReadVa_cases (d : Daemon) (later : Instant) (region : RegionInfo)
    (offsetInRegion : UInt64) (len : UInt32) (fullData : List UInt8) :
    let d' := (d.finishReadVa later region offsetInRegion len fullData).1
    d'.host = d.host ∨
      ∃ (start : ℕ) (entry : MrEntry),
        d'.fetchAgent.cachePool.ranges region.regionId = some (start, region.len.toNat) ∧
        d'.host.mrTable.lookup (d'.poolMrHandle.getD 0) = some entry ∧
        start + fullData.length ≤ (d.host.memory entry.device).capacity ∧
        d'.host = overwrite d.host entry.device start fullData := by
  have hfetch := d.fetchAgent.completeFetch_cases later region.regionId region.len region.epoch
  unfold Daemon.finishReadVa
  generalize d.fetchAgent.completeFetch later region.regionId region.len region.epoch = completed
    at hfetch
  obtain ⟨fetchAgent, result⟩ := completed
  rcases hfetch with ⟨⟨e, herror⟩, -⟩ | ⟨cached, hok, hinserted⟩
  · dsimp only at herror
    subst herror
    exact Or.inl rfl
  · dsimp only at hok
    subst hok
    rcases storeFetched_cases { d with fetchAgent } cached.poolOffset fullData with
      hsame | ⟨entry, hentry, hfits, hstored⟩
    · exact Or.inl (by simp only [hsame])
    · refine Or.inr ⟨cached.poolOffset.toNat, entry, ?_, ?_, hfits, ?_⟩
      · simp only [hstored]
        exact hinserted.ranges_self
      · simp only [hstored]
        exact hentry
      · simp only [hstored]

/-! ## Requests that fail a check -/

/-- The request fails with an error that does not depend on the bytes of the
devices, and changes none. -/
def Refuses (s : Site) (now later : Instant) (opaqueId : UInt64) (va : UbVa) (req : VaRequest) :
    Prop :=
  ∃ e, ∀ m, s.SameSizes m → ((s.setMemory m).run now later opaqueId va req).2 = .error e ∧
    ((s.setMemory m).run now later opaqueId va req).1.memory = m

theorem readDevice_refused {mrHandle : UInt32} {offset : UInt64} {len : ℕ} (missing : String)
    (hno : ∀ entry, s.daemon.host.mrTable.lookup mrHandle = some entry →
      ¬ offset.toNat + len ≤ (s.daemon.host.memory entry.device).capacity) :
    ∃ e, ∀ m, s.SameSizes m →
      (s.setMemory m).daemon.readDevice mrHandle offset len missing = .error e := by
  cases hentry : s.daemon.host.mrTable.lookup mrHandle with
  | none =>
    refine ⟨missing, fun m _ => ?_⟩
    simp only [setMemory, Daemon.readDevice, hentry]
  | some entry =>
    refine ⟨UbError.addrInvalid.display, fun m hsizes => ?_⟩
    have hcap : ((s.setMemory m).daemon.host.memory entry.device).capacity =
        (s.daemon.host.memory entry.device).capacity := hsizes none entry.device
    have hentry' : (s.setMemory m).daemon.host.mrTable.lookup mrHandle = some entry := hentry
    rw [readDevice_eq _ hentry', hcap, if_neg (hno entry hentry)]

section
variable (now later : Instant) (opaqueId : UInt64) {offset : UInt64} {len : UInt32}
  {data : List UInt8}

theorem refuses_disabled (hdisabled : s.daemon.enabled = false) (req : VaRequest) :
    s.Refuses now later opaqueId va req := by
  refine ⟨Daemon.disabled, fun m _ => ?_⟩
  have hdisabled' : (s.setMemory m).daemon.enabled = false := hdisabled
  cases req with
  | read offset len =>
    simp only [run, readVa, Daemon.verbReadVa, if_pos hdisabled']
    exact ⟨rfl, memory_setMemory m⟩
  | write offset data =>
    simp only [run, writeVa, Daemon.verbWriteVa, if_pos hdisabled']
    exact ⟨rfl, memory_setMemory m⟩

section
variable (henabled : ¬ s.daemon.enabled = false)
include henabled

theorem refuses_unknown (hunknown : s.daemon.fetchAgent.regionTable.lookup va.regionId = none)
    (req : VaRequest) :
    s.Refuses now later opaqueId va req := by
  refine ⟨"region not found", fun m _ => ?_⟩
  have henabled' : ¬ (s.setMemory m).daemon.enabled = false := henabled
  have hunknown' : (s.setMemory m).daemon.fetchAgent.regionTable.lookup va.regionId = none :=
    hunknown
  cases req with
  | read offset len =>
    simp only [run, readVa, Daemon.verbReadVa, if_neg henabled', FetchAgent.readVa, hunknown']
    exact ⟨rfl, memory_setMemory m⟩
  | write offset data =>
    simp only [run, writeVa, Daemon.verbWriteVa, if_neg henabled', hunknown']
    exact ⟨rfl, memory_setMemory m⟩

theorem refuses_home (hregion : s.Knows va region) (hstate : region.state = .home) {req : VaRequest}
    (hno : ¬ s.Accepts va req) :
    s.Refuses now later opaqueId va req := by
  have hfull : ∀ entry, s.daemon.host.mrTable.lookup region.mrHandle = some entry →
      ¬ (region.baseOffset + (va.offset + req.offset)).toNat + req.count ≤
        (s.daemon.host.memory entry.device).capacity :=
    fun entry hentry hfits => hno (.home ⟨henabled, hregion, hstate, hentry, hfits⟩)
  cases req with
  | read offset len =>
    obtain ⟨e, herror⟩ := readDevice_refused "home MR not found" hfull
    refine ⟨e, fun m hsizes => ?_⟩
    rw [run, readVa_home (s := s.setMemory m) now later opaqueId offset len henabled hregion
      hstate]
    exact ⟨herror m hsizes, memory_setMemory m⟩
  | write offset data =>
    cases hentry : s.daemon.host.mrTable.lookup region.mrHandle with
    | none =>
      refine ⟨"home MR not found", fun m _ => ?_⟩
      simp only [Knows] at hregion
      simp only [run, writeVa, Daemon.verbWriteVa, setMemory, if_neg henabled, hregion, hstate,
        hentry]
      exact ⟨rfl, memory_setMemory m⟩
    | some entry =>
      refine ⟨UbError.addrInvalid.display, fun m hsizes => ?_⟩
      have hcap : ((s.setMemory m).daemon.host.memory entry.device).capacity =
          (s.daemon.host.memory entry.device).capacity := hsizes none entry.device
      have hfull' : ¬ (region.baseOffset + (va.offset + offset)).toNat + data.length ≤
          (s.daemon.host.memory entry.device).capacity := hfull entry hentry
      rw [run, writeVa_home (s := s.setMemory m) offset data henabled hregion hstate hentry, hcap,
        if_neg hfull']
      exact ⟨rfl, memory_setMemory m⟩

theorem refuses_copy (hregion : s.Knows va region) {cached : CacheEntry}
    (hhits : s.Hits va region cached) (hno : ¬ s.Accepts va (.read offset len)) :
    s.Refuses now later opaqueId va (.read offset len) := by
  by_cases hcheck : cached.poolOffset + (va.offset + offset) + UInt64.ofNat len.toNat >
      cached.poolOffset + cached.len
  · refine ⟨"read beyond cached region bounds", fun m _ => ?_⟩
    obtain ⟨fetchAgent, hread⟩ := readVa_copy (s := s.setMemory m) now later opaqueId offset len
      henabled hregion hhits
    rw [run, hread, if_pos hcheck, memory_withAgent]
    exact ⟨rfl, memory_setMemory m⟩
  · have hfull : ∀ entry,
        s.daemon.host.mrTable.lookup (s.daemon.poolMrHandle.getD 0) = some entry →
        ¬ (cached.poolOffset + (va.offset + offset)).toNat + len.toNat ≤
          (s.daemon.host.memory entry.device).capacity :=
      fun entry hentry hfits => hno (.copy ⟨henabled, hregion, hhits, hcheck, hentry, hfits⟩)
    obtain ⟨e, herror⟩ := readDevice_refused "pool MR not found" hfull
    refine ⟨e, fun m hsizes => ?_⟩
    obtain ⟨fetchAgent, hread⟩ := readVa_copy (s := s.setMemory m) now later opaqueId offset len
      henabled hregion hhits
    rw [run, hread, if_neg hcheck, memory_withAgent]
    exact ⟨herror m hsizes, memory_setMemory m⟩

theorem refuses_miss (hregion : s.Knows va region) (hstate : region.state ≠ .home)
    (hmiss : ∀ cached, ¬ s.Hits va region cached) (hno : ¬ s.Accepts va (.read offset len)) :
    s.Refuses now later opaqueId va (.read offset len) := by
  obtain ⟨e, herror⟩ : ∃ e, ∀ m, s.SameSizes m → ((s.setMemory m).ubReadRemote
      (s.daemon.homeAddr region region.baseOffset) region.len.toUInt32 opaqueId).2 = .error e := by
    cases hreached : s.reached .readReq (s.daemon.homeAddr region region.baseOffset) with
    | none =>
      obtain ⟨e, herror⟩ := ubReadRemote_unreached region.len.toUInt32 opaqueId hreached
      exact ⟨e, fun m _ => herror m⟩
    | some found =>
      obtain ⟨node, entry⟩ := found
      refine ⟨.timeout, fun m hsizes => ?_⟩
      have hcap : (((s.setMemory m).peers node).memory entry.device).capacity =
          ((s.peers node).memory entry.device).capacity := hsizes (some node) entry.device
      rw [ubReadRemote_reached (s := s.setMemory m) region.len.toUInt32 opaqueId hreached, hcap,
        if_neg fun hfits => hno (.fetch ⟨henabled, hregion, hstate, hmiss, hreached, hfits⟩)]
  refine ⟨e.display, fun m hsizes => ?_⟩
  obtain ⟨hreply, hmemory⟩ := readVa_miss_error (s := s.setMemory m) now later opaqueId offset len
    henabled hregion hstate hmiss (herror m hsizes)
  exact ⟨hreply, hmemory.trans (memory_setMemory m)⟩

theorem refuses_remote (hregion : s.Knows va region) (hstate : region.state ≠ .home)
    (hno : ¬ s.Accepts va (.write offset data)) :
    s.Refuses now later opaqueId va (.write offset data) := by
  by_cases hsize : data.length > Daemon.maxPayloadSize
  · refine ⟨UbError.payloadTooLarge.display, fun m _ => ?_⟩
    simp only [run, writeVa, verbWriteVa_remote (s := s.setMemory m) offset data henabled hregion
      hstate, Daemon.ubWriteRemote, if_pos hsize]
    exact ⟨rfl, memory_setMemory m⟩
  · cases hcached : s.daemon.mrCache.lookupByAddr
        (s.daemon.homeAddr region (region.baseOffset + (va.offset + offset))) with
    | none =>
      refine ⟨UbError.addrInvalid.display, fun m _ => ?_⟩
      have hcached' : (s.setMemory m).daemon.mrCache.lookupByAddr ((s.setMemory m).daemon.homeAddr
          region (region.baseOffset + (va.offset + offset))) = none := hcached
      simp only [run, writeVa, verbWriteVa_remote (s := s.setMemory m) offset data henabled hregion
        hstate, Daemon.ubWriteRemote, if_neg hsize, hcached']
      exact ⟨rfl, memory_setMemory m⟩
    | some cached =>
      have hlinked : s.linked cached.ownerNode = false := by
        rw [← Bool.not_eq_true]
        exact fun hlinked => hno (.frame ⟨henabled, hregion, hstate, hsize, hcached, hlinked⟩)
      refine ⟨UbError.linkDown.display, fun m _ => ?_⟩
      have hcached' : (s.setMemory m).daemon.mrCache.lookupByAddr ((s.setMemory m).daemon.homeAddr
          region (region.baseOffset + (va.offset + offset))) = some cached := hcached
      have hlinked' : (s.setMemory m).linked cached.ownerNode = false := hlinked
      simp only [run, writeVa, verbWriteVa_remote (s := s.setMemory m) offset data henabled hregion
        hstate, Daemon.ubWriteRemote, if_neg hsize, hcached', if_pos hlinked']
      exact ⟨trivial, memory_setMemory m⟩

end

theorem refuses_of_not_accepts {req : VaRequest} (hno : ¬ s.Accepts va req) :
    s.Refuses now later opaqueId va req := by
  by_cases henabled : s.daemon.enabled = false
  · exact refuses_disabled now later opaqueId henabled req
  · cases hregion : s.daemon.fetchAgent.regionTable.lookup va.regionId with
    | none => exact refuses_unknown now later opaqueId henabled hregion req
    | some region =>
      by_cases hstate : region.state = .home
      · exact refuses_home now later opaqueId henabled hregion hstate hno
      · cases req with
        | read offset len =>
          by_cases hhits : ∃ cached, s.Hits va region cached
          · obtain ⟨cached, hhits⟩ := hhits
            exact refuses_copy now later opaqueId henabled hregion hhits hno
          · exact refuses_miss now later opaqueId henabled hregion hstate (not_exists.mp hhits) hno
        | write offset data =>
          exact refuses_remote now later opaqueId henabled hregion hstate hno

end

/-! ## Requests that pass the checks -/

section
variable {m : Option UInt16 → Memory} {req : VaRequest} {entry : MrEntry} {offset : UInt64}
  {len : UInt32}

theorem AtHome.setMemory (h : s.AtHome va req region entry) (hsizes : s.SameSizes m) :
    (s.setMemory m).AtHome va req region entry :=
  ⟨h.enabled, h.known, h.home, h.listed, le_of_le_of_eq h.fits (hsizes none entry.device).symm⟩

theorem InCopy.setMemory {cached : CacheEntry} (h : s.InCopy va offset len region cached entry)
    (hsizes : s.SameSizes m) : (s.setMemory m).InCopy va offset len region cached entry :=
  ⟨h.enabled, h.known, h.hits, h.checked, h.listed,
    le_of_le_of_eq h.fits (hsizes none entry.device).symm⟩

theorem ByFetch.setMemory {node : UInt16} (h : s.ByFetch va region node entry)
    (hsizes : s.SameSizes m) : (s.setMemory m).ByFetch va region node entry :=
  ⟨h.enabled, h.known, h.remote, h.misses, h.reached,
    le_of_le_of_eq h.fits (hsizes (some node) entry.device).symm⟩

theorem ByFrame.setMemory {data : List UInt8} {cached : MrCacheEntry}
    (h : s.ByFrame va offset data region cached) (m : Option UInt16 → Memory) :
    (s.setMemory m).ByFrame va offset data region cached :=
  ⟨h.enabled, h.known, h.remote, h.size, h.found, h.linked⟩

end

section
variable (now later : Instant) (opaqueId : UInt64) {offset : UInt64} {len : UInt32}
  {data : List UInt8} {entry : MrEntry}

theorem AtHome.run_read (h : s.AtHome va (.read offset len) region entry) :
    s.run now later opaqueId va (.read offset len) =
      (s, .ok (Bytes.slice (s.daemon.host.memory entry.device).data
        (region.baseOffset + (va.offset + offset)).toNat len.toNat)) := by
  rw [run, readVa_home now later opaqueId offset len h.enabled h.known h.home,
    readDevice_eq _ h.listed]
  exact congrArg (Prod.mk s) (if_pos h.fits)

theorem AtHome.run_write (h : s.AtHome va (.write offset data) region entry) :
    s.run now later opaqueId va (.write offset data) =
      ({ s with
          daemon :=
            { s.daemon with
              host := overwrite s.daemon.host entry.device
                (region.baseOffset + (va.offset + offset)).toNat data } },
        .ok []) := by
  rw [run, writeVa_home offset data h.enabled h.known h.home h.listed]
  exact if_pos h.fits

theorem InCopy.run {cached : CacheEntry} (h : s.InCopy va offset len region cached entry) :
    ∃ fetchAgent, s.run now later opaqueId va (.read offset len) =
      (s.withAgent fetchAgent, .ok (Bytes.slice (s.daemon.host.memory entry.device).data
        (cached.poolOffset + (va.offset + offset)).toNat len.toNat)) := by
  obtain ⟨fetchAgent, hread⟩ :=
    readVa_copy now later opaqueId offset len h.enabled h.known h.hits
  refine ⟨fetchAgent, ?_⟩
  rw [Site.run, hread, if_neg h.checked, readDevice_eq _ h.listed, if_pos h.fits]

/-- The bytes of a region as its home sends them. -/
def fetchedBytes (s : Site) (region : RegionInfo) (node : UInt16) (entry : MrEntry) : List UInt8 :=
  Bytes.slice ((s.peers node).memory entry.device).data
    (deviceOffset entry (s.daemon.homeAddr region region.baseOffset)).toNat
    region.len.toUInt32.toNat

theorem ByFetch.length_fetchedBytes {node : UInt16} (h : s.ByFetch va region node entry) :
    (s.fetchedBytes region node entry).length = region.len.toUInt32.toNat :=
  Bytes.length_slice h.fits

theorem ByFetch.run {node : UInt16} (h : s.ByFetch va region node entry) :
    ∃ (t : Site) (state : RegionState), t.memory = s.memory ∧
      s.run now later opaqueId va (.read offset len) =
        ({ t with
            daemon := (t.daemon.finishReadVa later { region with state, regionId := va.regionId }
              (va.offset + offset) len (s.fetchedBytes region node entry)).1 },
          .ok (Daemon.fetchedPart (s.fetchedBytes region node entry) (va.offset + offset)
            len)) := by
  have hremote := ubReadRemote_reached region.len.toUInt32 opaqueId h.reached
  rw [if_pos h.fits] at hremote
  exact readVa_miss_ok now later opaqueId offset len h.enabled h.known h.remote h.misses hremote

theorem ByFrame.run {cached : MrCacheEntry} (h : s.ByFrame va offset data region cached) :
    s.run now later opaqueId va (.write offset data) =
      ({ s with
          peers := Function.update s.peers cached.ownerNode
            (handleWrite (s.peers cached.ownerNode) data (Daemon.remoteExt .write cached
              (s.daemon.homeAddr region (region.baseOffset + (va.offset + offset))) 0)).host },
        .ok []) :=
  writeVa_remote offset data h.enabled h.known h.remote h.size h.found h.linked

theorem exists_ok_of_accepts {req : VaRequest} (h : s.Accepts va req) :
    ∃ value, (s.run now later opaqueId va req).2 = .ok value := by
  cases h with
  | home h =>
    cases req with
    | read offset len => exact ⟨_, congrArg Prod.snd (h.run_read now later opaqueId)⟩
    | write offset data => exact ⟨_, congrArg Prod.snd (h.run_write now later opaqueId)⟩
  | copy h =>
    obtain ⟨fetchAgent, hrun⟩ := h.run now later opaqueId
    exact ⟨_, congrArg Prod.snd hrun⟩
  | fetch h =>
    obtain ⟨t, state, -, hrun⟩ := h.run now later opaqueId
    exact ⟨_, congrArg Prod.snd hrun⟩
  | frame h => exact ⟨_, congrArg Prod.snd (h.run now later opaqueId)⟩

end
end Site
end UniBus.Managed
