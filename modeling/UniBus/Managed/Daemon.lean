import UniBus.DataPlane.Handlers
import UniBus.Managed.Coherence
import UniBus.Managed.FetchAgent
import UniBus.Managed.Placer

/-!
# The managed layer of a daemon

The part of a daemon that serves regions and virtual addresses, with the setup
of its pool and one function per handler. Where a handler waits for the data
plane it is cut in two: the part up to the request and the part after the
response.
-/
namespace UniBus.Managed

open DataPlane Wire

structure Daemon where
  podId : UInt16
  nodeId : UInt16
  enabled : Bool
  host : Host
  mrCache : MrCacheTable
  placer : Placer
  fetchAgent : FetchAgent
  coherence : CoherenceManager
  poolMrHandle : Option UInt32

/-- What the setup reads of the configuration. -/
structure DaemonConfig where
  podId : UInt16
  nodeId : UInt16
  enabled : Bool
  /-- The part of the pool that placement leaves free. -/
  memoryPoolReserve : UInt64
  cacheMaxBytes : UInt64
  writerLeaseMs : ℕ
  costWeights : CostWeights
  jettyTable : JettyTable

/-- 256 MiB. -/
def memoryPoolSize : ℕ := 2 ^ 28

def poolDevice : Device := ⟨.memory, 0, List.replicate memoryPoolSize 0⟩

namespace Daemon

def poolProfile (nodeId : UInt16) (usable : UInt64) : DeviceProfile :=
  { deviceKey := (nodeId, 0), kind := .memory, tier := .warm, capacityBytes := usable
    peakReadBwMbps := 10000, readLatencyNsP50 := 200, usedBytes := 0, recentRps := 0 }

/-- The daemon after setup. The pool is the first region it registers, so its
device has the id 0 there; the placer and the cache pool both allocate from
offset 0. -/
def start (config : DaemonConfig) : Daemon :=
  let usable := UInt64.ofNat memoryPoolSize - config.memoryPoolReserve
  let base : Daemon :=
    { podId := config.podId, nodeId := config.nodeId, enabled := config.enabled
      host := ⟨MrTable.new 1 config.nodeId, fun _ => poolDevice, config.jettyTable⟩
      mrCache := MrCacheTable.new
      placer := .new (.new config.costWeights)
      fetchAgent := .new RegionTable.new
        (.withRegionTable (.new 0 config.cacheMaxBytes) config.cacheMaxBytes)
      coherence := .new config.writerLeaseMs
      poolMrHandle := none }
  if config.enabled then
    match base.host.mrTable.register base.host.memory 0 (UInt64.ofNat memoryPoolSize)
        ((MrPerms.read.union .write).union .atomic) with
    | .error _ => base
    | .ok (mrTable, _, handle) =>
      { base with
        host := { base.host with mrTable }
        poolMrHandle := some handle
        placer :=
          { base.placer.registerSubAllocator config.nodeId 0 (.new 0 usable) with
            registry := base.placer.registry.register (poolProfile config.nodeId usable) } }
  else base

variable (d : Daemon)

def disabled : String := "managed layer not enabled"

structure RegionAllocRequest where
  size : UInt64
  latencyClass : String
  pin : Option String
  deriving DecidableEq, Repr

namespace RegionAllocRequest

def hints (req : RegionAllocRequest) : AllocHints where
  size := req.size
  latencyClass :=
    if req.latencyClass = "critical" then .critical
    else if req.latencyClass = "bulk" then .bulk
    else .normal
  pin :=
    if req.pin = some "memory" then some .memory
    else if req.pin = some "npu" then some .npu
    else none

end RegionAllocRequest

/-- The region is recorded as Home whatever node the placer chose. -/
def regionAlloc (req : RegionAllocRequest) : Daemon × Except String (UbVa × RegionPlacement) :=
  if d.enabled = false then (d, .error disabled)
  else
    match d.placer.place req.hints d.nodeId with
    | .error e => (d, .error e)
    | .ok (placer, va, placement) =>
      let mrHandle :=
        if placement.homeNodeId = d.nodeId then d.poolMrHandle.getD placement.mrHandle
        else placement.mrHandle
      let info : RegionInfo :=
        { regionId := va.regionId, homeNodeId := placement.homeNodeId
          deviceId := placement.deviceId, mrHandle, baseOffset := placement.baseOffset
          len := placement.len, epoch := 0, state := .home }
      ({ d with
          placer := placer.setMrHandle va.regionId mrHandle
          fetchAgent :=
            { d.fetchAgent with regionTable := d.fetchAgent.regionTable.insert info }
          coherence := d.coherence.registerRegion va.regionId placement.mrHandle
            placement.baseOffset placement.len },
        .ok (va, placement))

def regionFree (regionId : RegionId) : Daemon × Except String Unit :=
  if d.enabled = false then (d, .error disabled)
  else
    match d.placer.free regionId with
    | none => (d, .error "region not found")
    | some (placer, _) =>
      ({ d with
          placer
          fetchAgent :=
            { d.fetchAgent with regionTable := d.fetchAgent.regionTable.remove regionId }
          coherence := d.coherence.unregisterRegion regionId },
        .ok ())

/-- Makes a region of another node known, not cached yet. -/
def regionRegisterRemote (info : RegionInfo) : Daemon × Except String Unit :=
  if d.enabled = false then (d, .error disabled)
  else
    ({ d with
        fetchAgent :=
          { d.fetchAgent with
            regionTable := d.fetchAgent.regionTable.insert { info with state := .invalid } } },
      .ok ())

def regionInvalidate (regionId : RegionId) (newEpoch : UInt64) : Daemon × Except String Bool :=
  if d.enabled = false then (d, .error disabled)
  else
    let (fetchAgent, invalidated) := d.fetchAgent.receiveInvalidate regionId newEpoch
    ({ d with fetchAgent }, .ok invalidated)

inductive ReadSource
  | home
  | cache
  | fetch
  deriving DecidableEq, Repr

/-- The start of a read: an answer, or a region to fetch from its home first. -/
inductive ReadVaStart
  | answered (result : Except String (List UInt8 × ReadSource))
  | fetching (region : RegionInfo)

/-- A device read on behalf of a virtual address. -/
def readDevice (mrHandle : UInt32) (offset : UInt64) (len : ℕ) (missing : String) :
    Except String (List UInt8) :=
  match d.host.mrTable.lookup mrHandle with
  | none => .error missing
  | some entry =>
    match (d.host.memory entry.device).read offset len with
    | .error e => .error e.display
    | .ok buf => .ok buf

def verbReadVa (now : Instant) (va : UbVa) (offset : UInt64) (len : UInt32) :
    Daemon × ReadVaStart :=
  if d.enabled = false then (d, .answered (.error disabled))
  else
    let regionId := va.regionId
    let offsetInRegion := va.offset + offset
    match d.fetchAgent.readVa now regionId with
    | (fetchAgent, .unknownRegion) =>
      ({ d with fetchAgent }, .answered (.error "region not found"))
    | (fetchAgent, .home region) =>
      ({ d with fetchAgent },
        .answered ((d.readDevice region.mrHandle (region.baseOffset + offsetInRegion) len.toNat
          "home MR not found").map fun buf => (buf, .home)))
    | (fetchAgent, .cacheMiss region) => ({ d with fetchAgent }, .fetching region)
    | (fetchAgent, .cacheHit _ _) =>
      match fetchAgent.cachePool.lookup now regionId with
      -- The source unwraps here and would panic. A hit is answered only after a lookup that found
      -- the copy, and a lookup keeps it, so no read comes to this branch.
      | (cachePool, none) => ({ d with fetchAgent := { fetchAgent with cachePool } },
          .answered (.error "region not found"))
      | (cachePool, some entry) =>
        let d := { d with fetchAgent := { fetchAgent with cachePool } }
        let readOffset := entry.poolOffset + offsetInRegion
        if readOffset + UInt64.ofNat len.toNat > entry.poolOffset + entry.len then
          (d, .answered (.error "read beyond cached region bounds"))
        else
          (d, .answered ((d.readDevice (d.poolMrHandle.getD 0) readOffset len.toNat
            "pool MR not found").map fun buf => (buf, .cache)))

/-- The bus address of a place on the home node of a region. -/
def homeAddr (region : RegionInfo) (offset : UInt64) : UbAddr :=
  UbAddr.new d.podId region.homeNodeId region.deviceId offset 0

/-- Stores fetched bytes in the pool; a device error is ignored. -/
def storeFetched (poolOffset : UInt64) (fullData : List UInt8) : Daemon :=
  match d.poolMrHandle.bind d.host.mrTable.lookup with
  | none => d
  | some entry =>
    match (d.host.memory entry.device).write poolOffset fullData with
    | .error _ => d
    | .ok device =>
      { d with host := { d.host with memory := Function.update d.host.memory entry.device device } }

/-- The requested part of the fetched bytes; zeros behind them. -/
def fetchedPart (fullData : List UInt8) (offsetInRegion : UInt64) (len : UInt32) : List UInt8 :=
  if offsetInRegion.toNat < fullData.length then
    (fullData.drop offsetInRegion.toNat).take len.toNat
  else List.replicate len.toNat 0

/-- The rest of a read once the bytes of the region have arrived: they are cached
if there is room, and the requested part is returned in any case. -/
def finishReadVa (now : Instant) (region : RegionInfo) (offsetInRegion : UInt64) (len : UInt32)
    (fullData : List UInt8) : Daemon × List UInt8 :=
  let data := fetchedPart fullData offsetInRegion len
  match d.fetchAgent.completeFetch now region.regionId region.len region.epoch with
  | (fetchAgent, .error _) => ({ d with fetchAgent }, data)
  | (fetchAgent, .ok poolOffset) => ({ d with fetchAgent }.storeFetched poolOffset fullData, data)

/-- The start of a write: done on the home device, or a frame for the home node. -/
inductive WriteVaStart
  | answered (result : Except String Unit)
  | sending (dst : UInt16) (ext : DataExtHeader) (data : List UInt8)

def maxPayloadSize : ℕ := 1320

/-- The header of a frame for a region of another node. -/
def remoteExt (verb : Verb) (entry : MrCacheEntry) (addr : UbAddr) (opaqueId : UInt64) :
    DataExtHeader where
  verb := verb
  extFlags := ExtFlags.empty
  mrHandle := entry.remoteMrHandle
  jettySrc := 0
  jettyDst := 0
  opaqueId := opaqueId
  fragId := 0
  fragIndex := 0
  fragTotal := 1
  ubAddr := addr
  imm := none

/-- The request of `ub_read_remote`, with its payload. -/
def ubReadRemote (addr : UbAddr) (len : UInt32) (opaqueId : UInt64) :
    Except UbError (UInt16 × DataExtHeader × List UInt8) :=
  match d.mrCache.lookupByAddr addr with
  | none => .error .addrInvalid
  | some entry =>
    .ok (entry.ownerNode, remoteExt .readReq entry addr opaqueId, BigEndian.put 4 len.toNat)

def ubWriteRemote (addr : UbAddr) (data : List UInt8) :
    Except UbError (UInt16 × DataExtHeader) :=
  if data.length > maxPayloadSize then .error .payloadTooLarge
  else
    match d.mrCache.lookupByAddr addr with
    | none => .error .addrInvalid
    | some entry => .ok (entry.ownerNode, remoteExt .write entry addr 0)

def verbWriteVa (va : UbVa) (offset : UInt64) (data : List UInt8) : Daemon × WriteVaStart :=
  if d.enabled = false then (d, .answered (.error disabled))
  else
    match d.fetchAgent.regionTable.lookup va.regionId with
    | none => (d, .answered (.error "region not found"))
    | some region =>
      let offset := region.baseOffset + va.offset + offset
      match region.state with
      | .home =>
        match d.host.mrTable.lookup region.mrHandle with
        | none => (d, .answered (.error "home MR not found"))
        | some entry =>
          match (d.host.memory entry.device).write offset data with
          | .error e => (d, .answered (.error e.display))
          | .ok device =>
            ({ d with
                host :=
                  { d.host with memory := Function.update d.host.memory entry.device device } },
              .answered (.ok ()))
      | .shared _ | .invalid =>
        match d.ubWriteRemote (d.homeAddr region offset) data with
        | .error e => (d, .answered (.error e.display))
        | .ok (dst, ext) => (d, .sending dst ext data)

/-- The lock is taken at the own coherence manager, not at the region's home. -/
def acquireWriter (now : Instant) (va : UbVa) : Daemon × Except String AcquireWriterResult :=
  if d.enabled = false then (d, .error disabled)
  else
    let (coherence, result) := d.coherence.acquireWriter now va.regionId d.nodeId
    ({ d with coherence }, .ok result)

def releaseWriter (va : UbVa) : Daemon × Except String UInt64 :=
  if d.enabled = false then (d, .error disabled)
  else
    match d.coherence.releaseWriter va.regionId d.nodeId with
    | (coherence, true) =>
      ({ d with coherence }, .ok ((coherence.getEpoch va.regionId).getD 0))
    | (coherence, false) =>
      ({ d with coherence },
        .error "failed to release writer (not the current writer or region not found)")

/-! ## What each handler leaves alone -/

@[simp] theorem storeFetched_fetchAgent (poolOffset : UInt64) (fullData : List UInt8) :
    (d.storeFetched poolOffset fullData).fetchAgent = d.fetchAgent := by
  unfold storeFetched
  split
  · rfl
  · split <;> rfl

@[simp] theorem storeFetched_placer (poolOffset : UInt64) (fullData : List UInt8) :
    (d.storeFetched poolOffset fullData).placer = d.placer := by
  unfold storeFetched
  split
  · rfl
  · split <;> rfl

@[simp] theorem storeFetched_nodeId (poolOffset : UInt64) (fullData : List UInt8) :
    (d.storeFetched poolOffset fullData).nodeId = d.nodeId := by
  unfold storeFetched
  split
  · rfl
  · split <;> rfl

theorem regionInvalidate_fetchAgent (henabled : ¬ d.enabled = false) (regionId : RegionId)
    (newEpoch : UInt64) :
    (d.regionInvalidate regionId newEpoch).1.fetchAgent =
      (d.fetchAgent.receiveInvalidate regionId newEpoch).1 := by
  rw [regionInvalidate, if_neg henabled]

section
variable (now : Instant) (region : RegionInfo) (offsetInRegion : UInt64) (len : UInt32)
  (fullData : List UInt8)

@[simp] theorem finishReadVa_fetchAgent :
    (d.finishReadVa now region offsetInRegion len fullData).1.fetchAgent =
      (d.fetchAgent.completeFetch now region.regionId region.len region.epoch).1 := by
  unfold finishReadVa
  split <;> rename_i heq <;> simp [heq]

@[simp] theorem finishReadVa_placer :
    (d.finishReadVa now region offsetInRegion len fullData).1.placer = d.placer := by
  unfold finishReadVa
  split <;> simp

@[simp] theorem finishReadVa_nodeId :
    (d.finishReadVa now region offsetInRegion len fullData).1.nodeId = d.nodeId := by
  unfold finishReadVa
  split <;> simp

end

end Daemon
end UniBus.Managed
