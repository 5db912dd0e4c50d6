import UniBus.Foundations.Checked
import UniBus.Managed.Daemon

/-!
# Nodes that share a region

All nodes of a cluster work on one region through their daemons. Remote writes
travel to the home node in the order in which a node sent them; a fetch is a
request, its service at the home node and its completion at the reader, with
anything in between. The history counts the writes the home node has applied.
-/
namespace UniBus.Managed

open DataPlane Wire

/-- A write on its way to the home node. -/
structure WriteFrame where
  dst : UInt16
  ext : DataExtHeader
  data : List UInt8
  deriving DecidableEq, Repr

structure AppliedWrite where
  node : UInt16
  offset : UInt64
  data : List UInt8
  deriving DecidableEq, Repr

structure StartedRead where
  node : UInt16
  offset : UInt64
  len : UInt32
  deriving DecidableEq, Repr

structure Fetch where
  read : StartedRead
  region : RegionInfo
  dst : UInt16
  ext : DataExtHeader
  payload : List UInt8
  /-- The bytes sent back by the home node, with the number of writes it had
  applied by then. -/
  reply : Option (List UInt8 × ℕ)

structure World where
  nodes : UInt16 → Daemon
  /-- The writes under way from each node, the oldest first. -/
  frames : UInt16 → List WriteFrame
  fetches : ℕ → Option Fetch
  nextRead : ℕ
  /-- History: the number of writes applied so far. -/
  applied : ℕ
  /-- History: the number of writes that were applied when the home node sent the
  bytes of a node's copy. -/
  copyVersion : UInt16 → ℕ

inductive ShareInput
  | acquireWriter (node : UInt16) (now : Instant)
  | releaseWriter (node : UInt16)
  | regionInvalidate (node : UInt16) (newEpoch : UInt64)
  | writeVa (node : UInt16) (vaOffset offset : UInt64) (data : List UInt8)
  /-- The oldest write of a node arrives. -/
  | deliverWrite (node : UInt16)
  | readVa (node : UInt16) (now : Instant) (vaOffset offset : UInt64) (len : UInt32)
  /-- The home node answers the request of a fetch. -/
  | serveFetch (id : ℕ)
  /-- The answer arrives at the reader. -/
  | finishFetch (id : ℕ) (now : Instant)
  deriving DecidableEq, Repr

inductive ShareEvent
  | acquired (node : UInt16) (result : Except String AcquireWriterResult)
  | released (node : UInt16) (result : Except String UInt64)
  | applied (write : AppliedWrite)
  | started (id : ℕ) (read : StartedRead)
  | answered (id : ℕ) (read : StartedRead) (result : Except String (List UInt8))

namespace World

@[simps] def setNode (w : World) (node : UInt16) (d : Daemon) : World :=
  { w with nodes := Function.update w.nodes node d }

def setHost (w : World) (node : UInt16) (host : Host) : World :=
  w.setNode node { w.nodes node with host }

theorem setHost_nodes (w : World) (node : UInt16) (host : Host) :
    (w.setHost node host).nodes = Function.update w.nodes node { w.nodes node with host } := rfl

@[simp] theorem setNode_self (w : World) (node : UInt16) : w.setNode node (w.nodes node) = w := by
  simp [setNode]

@[simp] theorem setHost_self (w : World) (node : UInt16) :
    w.setHost node (w.nodes node).host = w :=
  w.setNode_self node

@[simps] def setFrames (w : World) (node : UInt16) (frames : List WriteFrame) : World :=
  { w with frames := Function.update w.frames node frames }

@[simps] def setFetch (w : World) (id : ℕ) (fetch : Option Fetch) : World :=
  { w with fetches := Function.update w.fetches id fetch }

@[simps] def countRead (w : World) : World := { w with nextRead := w.nextRead + 1 }

@[simps] def countWrite (w : World) : World := { w with applied := w.applied + 1 }

@[simps] def setCopyVersion (w : World) (node : UInt16) (version : ℕ) : World :=
  { w with copyVersion := Function.update w.copyVersion node version }

theorem setCopyVersion_self (w : World) (node : UInt16) :
    w.setCopyVersion node (w.copyVersion node) = w := by
  simp [setCopyVersion]

/-- A write through the daemon of a node: done at once on the home device, or
queued as a frame. -/
def writeVa (w : World) (R : RegionInfo) (node : UInt16) (vaOffset offset : UInt64)
    (data : List UInt8) : World × List ShareEvent :=
  match (w.nodes node).verbWriteVa (UbVa.new R.regionId vaOffset) offset data with
  | (d, .answered (.error _)) => (w.setNode node d, [])
  | (d, .answered (.ok ())) =>
    ((w.setNode node d).countWrite, [.applied ⟨node, vaOffset + offset, data⟩])
  | (d, .sending dst ext data) =>
    ((w.setNode node d).setFrames node (w.frames node ++ [⟨dst, ext, data⟩]), [])

def deliverWrite (w : World) (R : RegionInfo) (node : UInt16) : World × List ShareEvent :=
  match w.frames node with
  | [] => (w, [])
  | frame :: rest =>
    let w := w.setFrames node rest
    match handleWrite (w.nodes frame.dst).host frame.data frame.ext with
    | ⟨host, none, _⟩ => (w.setHost frame.dst host, [])
    | ⟨host, some _, _⟩ =>
      ((w.setHost frame.dst host).countWrite,
        [.applied ⟨node, frame.ext.ubAddr.offset - R.baseOffset, frame.data⟩])

def readVa (w : World) (R : RegionInfo) (node : UInt16) (now : Instant)
    (vaOffset offset : UInt64) (len : UInt32) : World × List ShareEvent :=
  let id := w.nextRead
  let w := w.countRead
  let read : StartedRead := ⟨node, vaOffset + offset, len⟩
  match (w.nodes node).verbReadVa now (UbVa.new R.regionId vaOffset) offset len with
  | (d, .answered result) =>
    (w.setNode node d, [.started id read, .answered id read (result.map Prod.fst)])
  | (d, .fetching region) =>
    match d.ubReadRemote (d.homeAddr region region.baseOffset) region.len.toUInt32
        (UInt64.ofNat id) with
    | .error e => (w.setNode node d, [.started id read, .answered id read (.error e.display)])
    | .ok (dst, ext, payload) =>
      ((w.setNode node d).setFetch id (some ⟨read, region, dst, ext, payload, none⟩),
        [.started id read])

/-- An error response does not reach the waiting read. -/
def serveFetch (w : World) (id : ℕ) : World × List ShareEvent :=
  match w.fetches id with
  | none => (w, [])
  | some fetch =>
    if fetch.reply.isSome then (w, [])
    else
      match handleReadReq (w.nodes fetch.dst).host fetch.payload fetch.ext with
      | ⟨host, _, .error _⟩ => (w.setHost fetch.dst host, [])
      | ⟨host, _, .ok bytes⟩ =>
        ((w.setHost fetch.dst host).setFetch id
          (some { fetch with reply := some (bytes, w.applied) }), [])

def finishFetch (w : World) (id : ℕ) (now : Instant) : World × List ShareEvent :=
  match w.fetches id with
  | none => (w, [])
  | some fetch =>
    match fetch.reply with
    | none => (w, [])
    | some (bytes, version) =>
      let node := fetch.read.node
      let (d, data) := (w.nodes node).finishReadVa now fetch.region fetch.read.offset
        fetch.read.len bytes
      let cached := ((w.nodes node).fetchAgent.completeFetch now fetch.region.regionId
        fetch.region.len fetch.region.epoch).2.isOk
      let w := (w.setNode node d).setFetch id none
      (if cached then w.setCopyVersion node version else w,
        [.answered id fetch.read (.ok data)])

def step (R : RegionInfo) (w : World) : ShareInput → World × List ShareEvent
  | .acquireWriter node now =>
    let (d, result) := (w.nodes node).acquireWriter now (UbVa.new R.regionId 0)
    (w.setNode node d, [.acquired node result])
  | .releaseWriter node =>
    let (d, result) := (w.nodes node).releaseWriter (UbVa.new R.regionId 0)
    (w.setNode node d, [.released node result])
  | .regionInvalidate node newEpoch =>
    (w.setNode node ((w.nodes node).regionInvalidate R.regionId newEpoch).1, [])
  | .writeVa node vaOffset offset data => w.writeVa R node vaOffset offset data
  | .deliverWrite node => w.deliverWrite R node
  | .readVa node now vaOffset offset len => w.readVa R node now vaOffset offset len
  | .serveFetch id => w.serveFetch id
  | .finishFetch id now => w.finishFetch id now

end World

/-! ## The home node -/

/-- A region that all nodes know, with the pool entry its home node keeps it in. -/
structure SharedRegion where
  region : RegionInfo
  pool : MrEntry
  state_eq : region.state = .home
  handle_eq : pool.handle = region.mrHandle
  base_eq : pool.baseOffset = 0
  readable : pool.checkPerms .readReq = .ok ()
  writable : pool.checkPerms .write = .ok ()
  fits : region.baseOffset.toNat + region.len.toNat ≤ memoryPoolSize

theorem SharedRegion.deviceOffset_pool (S : SharedRegion) (addr : UbAddr) :
    deviceOffset S.pool addr = addr.offset := by
  have hbase : S.pool.baseUbAddr.offset = 0 := S.pool.offset_baseUbAddr.trans S.base_eq
  have hle : addr.offset ≥ S.pool.baseUbAddr.offset := by
    rw [hbase]
    exact UInt64.zero_le
  rw [deviceOffset, offsetInMr, if_pos hle, hbase, S.base_eq, UInt64.sub_zero, UInt64.zero_add]

/-- The host after a write to one of its devices. -/
def overwrite (h : Host) (device : DeviceRef) (pos : ℕ) (data : List UInt8) : Host :=
  { h with
    memory := Function.update h.memory device
      { h.memory device with data := Bytes.splice (h.memory device).data pos data } }

namespace Daemon

/-- The daemon is the home of the region. -/
structure Serves (S : SharedRegion) (d : Daemon) : Prop where
  enabled : ¬ d.enabled = false
  region : d.fetchAgent.regionTable.lookup S.region.regionId = some S.region
  pool : d.host.mrTable.lookup S.region.mrHandle = some S.pool
  active : (d.host.mrTable.cells S.pool.handle).state = .active
  capacity : (d.host.memory S.pool.device).capacity = memoryPoolSize

variable {S : SharedRegion} {d : Daemon}

def homeBytes (S : SharedRegion) (d : Daemon) : List UInt8 := (d.host.memory S.pool.device).data

theorem homeBytes_overwrite (pos : ℕ) (data : List UInt8) :
    homeBytes S { d with host := overwrite d.host S.pool.device pos data } =
      Bytes.splice (homeBytes S d) pos data := by
  simp [homeBytes, overwrite]

section
variable (h : d.Serves S)
include h

theorem Serves.overwrite {pos : ℕ} {data : List UInt8}
    (hfits : pos + data.length ≤ memoryPoolSize) :
    Serves S { d with host := overwrite d.host S.pool.device pos data } := by
  have hlength : (Bytes.splice (homeBytes S d) pos data).length = memoryPoolSize := by
    have hcapacity : (homeBytes S d).length = memoryPoolSize := h.capacity
    rw [Bytes.length_splice (by rw [hcapacity]; exact hfits), hcapacity]
  refine ⟨h.enabled, h.region, h.pool, h.active, ?_⟩
  rw [← hlength, ← homeBytes_overwrite]
  rfl

theorem Serves.acquire {mrHandle : UInt32} {verb : Verb} (hhandle : mrHandle = S.region.mrHandle)
    (hperms : S.pool.checkPerms verb = .ok ()) :
    DataPlane.acquire d.host.mrTable mrHandle verb =
      .ok (S.pool, d.host.mrTable.inflightAdd S.pool.handle 1) := by
  have hinc : d.host.mrTable.tryInflightInc S.pool =
      some (d.host.mrTable.inflightAdd S.pool.handle 1) := by
    rw [MrTable.tryInflightInc, if_neg (not_not_intro h.active)]
  simp only [DataPlane.acquire, hhandle, h.pool, hinc, hperms]

theorem Serves.handleWrite_cases {ext : DataExtHeader} (data : List UInt8)
    (hhandle : ext.mrHandle = S.region.mrHandle) :
    (∃ warning, handleWrite d.host data ext = ⟨d.host, none, warning⟩) ∨
      ext.ubAddr.offset.toNat + data.length ≤ memoryPoolSize ∧
        ∃ access, handleWrite d.host data ext =
          ⟨Managed.overwrite d.host S.pool.device ext.ubAddr.offset.toNat data, some access,
            none⟩ := by
  simp only [handleWrite, h.acquire hhandle S.writable, MrTable.inflightDec_inflightAdd,
    S.deviceOffset_pool, Memory.write, Device.write_eq, h.capacity]
  split_ifs with hfits
  · exact Or.inr ⟨hfits, _, rfl⟩
  · exact Or.inl ⟨_, rfl⟩

theorem Serves.handleReadReq_eq {ext : DataExtHeader} (hhandle : ext.mrHandle = S.region.mrHandle)
    (hoffset : ext.ubAddr.offset = S.region.baseOffset) :
    ∃ access, handleReadReq d.host (BigEndian.put 4 S.region.len.toUInt32.toNat) ext =
      ⟨d.host, access,
        .ok (Bytes.slice (homeBytes S d) S.region.baseOffset.toNat S.region.len.toNat)⟩ := by
  have hfits := S.fits
  have hlen : readLen (BigEndian.put 4 S.region.len.toUInt32.toNat) = S.region.len.toNat := by
    rw [memoryPoolSize] at hfits
    rw [readLen_put, UInt64.toNat_toUInt32]
    omega
  simp only [handleReadReq, h.acquire hhandle S.readable, MrTable.inflightDec_inflightAdd,
    S.deviceOffset_pool, Memory.read, Device.read_eq, h.capacity, hoffset, hlen, if_pos hfits]
  exact ⟨_, rfl⟩

theorem Serves.verbReadVa_eq (now : Instant) (vaOffset offset : UInt64) (len : UInt32) :
    ∃ result, d.verbReadVa now (UbVa.new S.region.regionId vaOffset) offset len =
        (d, .answered result) ∧
      ((vaOffset + offset).toNat + len.toNat ≤ S.region.len.toNat →
        result.map Prod.fst = .ok (Bytes.slice (homeBytes S d)
          (S.region.baseOffset.toNat + (vaOffset + offset).toNat) len.toNat)) := by
  refine ⟨(d.readDevice S.region.mrHandle (S.region.baseOffset + (vaOffset + offset)) len.toNat
    "home MR not found").map fun buf => (buf, .home), ?_, ?_⟩
  · simp only [Daemon.verbReadVa, if_neg h.enabled, UbVa.regionId_new, UbVa.offset_new,
      FetchAgent.readVa, h.region, S.state_eq]
  · intro hin
    have hfits := S.fits
    rw [memoryPoolSize] at hfits
    have hoffset : (S.region.baseOffset + (vaOffset + offset)).toNat =
        S.region.baseOffset.toNat + (vaOffset + offset).toNat := Checked.toNat_addU64 (by omega)
    have hread : S.region.baseOffset.toNat + (vaOffset + offset).toNat + len.toNat ≤
        memoryPoolSize := by
      rw [memoryPoolSize]
      omega
    simp only [readDevice, h.pool, Device.read_eq, h.capacity, hoffset, if_pos hread]
    rfl

theorem Serves.verbWriteVa_cases (vaOffset offset : UInt64) (data : List UInt8) :
    (¬ (S.region.baseOffset + (vaOffset + offset)).toNat + data.length ≤ memoryPoolSize ∧
      ∃ e, d.verbWriteVa (UbVa.new S.region.regionId vaOffset) offset data =
        (d, .answered (.error e))) ∨
    (S.region.baseOffset + (vaOffset + offset)).toNat + data.length ≤ memoryPoolSize ∧
      d.verbWriteVa (UbVa.new S.region.regionId vaOffset) offset data =
        ({ d with
            host := Managed.overwrite d.host S.pool.device
              (S.region.baseOffset + (vaOffset + offset)).toNat data },
          .answered (.ok ())) := by
  simp only [Daemon.verbWriteVa, if_neg h.enabled, UbVa.regionId_new, UbVa.offset_new, h.region,
    S.state_eq, h.pool, Device.write_eq, h.capacity, UInt64.add_assoc]
  by_cases hfits : (S.region.baseOffset + (vaOffset + offset)).toNat + data.length ≤ memoryPoolSize
  · rw [if_pos hfits]
    exact Or.inr ⟨hfits, rfl⟩
  · rw [if_neg hfits]
    exact Or.inl ⟨hfits, _, rfl⟩

theorem Serves.regionInvalidate_eq (newEpoch : UInt64) :
    (d.regionInvalidate S.region.regionId newEpoch).1 = d := by
  simp only [regionInvalidate, if_neg h.enabled, FetchAgent.receiveInvalidate, h.region, S.state_eq]

end

/-! ## The other nodes -/

/-- The daemon knows the region as one of another node, reaches it there, and keeps
its copy, if it has one, inside its pool. -/
structure Replica (S : SharedRegion) (d : Daemon) : Prop where
  enabled : ¬ d.enabled = false
  region : ∃ epoch state, state ≠ .home ∧
    d.fetchAgent.regionTable.lookup S.region.regionId = some { S.region with epoch, state }
  resolves : ∀ offset entry, d.mrCache.lookupByAddr (d.homeAddr S.region offset) = some entry →
    entry.ownerNode = S.region.homeNodeId ∧ entry.remoteMrHandle = S.region.mrHandle
  reaches : (d.mrCache.lookupByAddr (d.homeAddr S.region S.region.baseOffset)).isSome
  pool : ∃ handle mr, d.poolMrHandle = some handle ∧ d.host.mrTable.lookup handle = some mr ∧
    (d.host.memory mr.device).capacity = memoryPoolSize
  placed : ∀ r, d.fetchAgent.cachePool.ranges S.region.regionId = some r →
    r.2 = S.region.len.toNat ∧ r.1 + r.2 ≤ memoryPoolSize

def copyOf (d : Daemon) (regionId : RegionId) : Option (List UInt8) :=
  match d.poolMrHandle.bind d.host.mrTable.lookup with
  | none => none
  | some mr => (d.fetchAgent.cachePool.ranges regionId).map fun r =>
      Bytes.slice (d.host.memory mr.device).data r.1 r.2

variable {regionId : RegionId} {fullData : List UInt8}

theorem copyOf_eq_none (h : d.fetchAgent.cachePool.ranges regionId = none) :
    d.copyOf regionId = none := by
  unfold copyOf
  split
  · rfl
  · rw [h, Option.map_none]

theorem Replica.withAgent (h : d.Replica S) {f : FetchAgent}
    (hregions : d.fetchAgent.regionTable.SameRegions f.regionTable)
    (hpool : d.fetchAgent.cachePool.Shrinks f.cachePool) :
    Replica S { d with fetchAgent := f } := by
  obtain ⟨epoch, state, hstate, hlookup⟩ := h.region
  obtain ⟨epoch', state', hlookup', hhome⟩ := hregions _ _ hlookup
  refine ⟨h.enabled, ⟨epoch', state', ?_, hlookup'⟩, h.resolves, h.reaches, h.pool, ?_⟩
  · intro hs
    exact hstate (hhome hs)
  · intro r hr
    exact h.placed r (hpool.ranges _ r hr)

theorem copyOf_withAgent {f : FetchAgent} (hpool : d.fetchAgent.cachePool.Shrinks f.cachePool)
    {bytes : List UInt8} (h : copyOf { d with fetchAgent := f } regionId = some bytes) :
    d.copyOf regionId = some bytes := by
  unfold copyOf at h ⊢
  cases hmr : d.poolMrHandle.bind d.host.mrTable.lookup with
  | none =>
    rw [hmr] at h
    cases h
  | some mr =>
    rw [hmr] at h
    obtain ⟨r, hr, rfl⟩ := Option.map_eq_some_iff.mp h
    dsimp only
    rw [hpool.ranges _ r hr]
    rfl

section
variable (h : d.Replica S)
include h

theorem Replica.exists_copy {r : ℕ × ℕ} (hr : d.fetchAgent.cachePool.ranges regionId = some r) :
    ∃ bytes, d.copyOf regionId = some bytes := by
  obtain ⟨handle, mr, hhandle, hmr, -⟩ := h.pool
  simp only [copyOf, hhandle, Option.bind_some, hmr, hr, Option.map_some]
  exact ⟨_, rfl⟩

theorem Replica.readCopy {entry : CacheEntry} {offset : UInt64} {len : UInt32} {bytes : List UInt8}
    (hbytes : d.copyOf S.region.regionId = some bytes)
    (hentry : d.fetchAgent.cachePool.ranges S.region.regionId =
      some (entry.poolOffset.toNat, entry.len.toNat))
    (hin : offset.toNat + len.toNat ≤ S.region.len.toNat) :
    ¬ entry.poolOffset + offset + UInt64.ofNat len.toNat > entry.poolOffset + entry.len ∧
      d.readDevice (d.poolMrHandle.getD 0) (entry.poolOffset + offset) len.toNat
        "pool MR not found" = .ok (Bytes.slice bytes offset.toNat len.toNat) := by
  obtain ⟨hlen, hfits⟩ := h.placed _ hentry
  obtain ⟨handle, mr, hhandle, hmr, hcapacity⟩ := h.pool
  dsimp only at hlen hfits
  rw [memoryPoolSize] at hfits hcapacity
  have hoffset : (entry.poolOffset + offset).toNat = entry.poolOffset.toNat + offset.toNat :=
    Checked.toNat_addU64 (by omega)
  constructor
  · intro hgt
    have hgt := UInt64.lt_iff_toNat_lt.mp hgt
    rw [UInt64.toNat_add, UInt64.toNat_add, hoffset, UInt64.toNat_ofNat'] at hgt
    omega
  · simp only [copyOf, hhandle, Option.bind_some, hmr, hentry, Option.map_some,
      Option.some.injEq] at hbytes
    subst hbytes
    rw [Bytes.slice_slice (by omega)]
    have hread : entry.poolOffset.toNat + offset.toNat + len.toNat ≤
        (d.host.memory mr.device).capacity := by omega
    simp only [readDevice, hhandle, Option.getD_some, hmr, Device.read_eq, hoffset, if_pos hread]

/-- A read at another node starts a fetch or is answered from the copy. -/
theorem Replica.verbReadVa_cases (now : Instant) (vaOffset offset : UInt64) (len : UInt32) :
    ∃ f, d.fetchAgent.regionTable.SameRegions f.regionTable ∧
      d.fetchAgent.cachePool.Shrinks f.cachePool ∧
      ((∃ epoch state, (∃ region, (d.fetchAgent.readVa now S.region.regionId).2 =
          .cacheMiss region) ∧
          d.verbReadVa now (UbVa.new S.region.regionId vaOffset) offset len =
            ({ d with fetchAgent := f }, .fetching { S.region with epoch, state })) ∨
        ∃ bytes result, d.copyOf S.region.regionId = some bytes ∧
          d.verbReadVa now (UbVa.new S.region.regionId vaOffset) offset len =
            ({ d with fetchAgent := f }, .answered result) ∧
          ((vaOffset + offset).toNat + len.toNat ≤ S.region.len.toNat →
            result.map Prod.fst =
              .ok (Bytes.slice bytes (vaOffset + offset).toNat len.toNat))) := by
  obtain ⟨epoch, state, hstate, hregion⟩ := h.region
  obtain ⟨hregions, hcases⟩ := d.fetchAgent.readVa_cases now hregion hstate
  have hshrinks := d.fetchAgent.shrinks_readVa now S.region.regionId
  simp only [Daemon.verbReadVa, if_neg h.enabled, UbVa.regionId_new, UbVa.offset_new]
  generalize d.fetchAgent.readVa now S.region.regionId = result at hregions hcases hshrinks
  obtain ⟨f, result⟩ := result
  rcases hcases with ⟨epoch', state', hmiss⟩ | ⟨entry, hentry, hhit⟩
  · dsimp only at hmiss
    subst hmiss
    exact ⟨f, hregions, hshrinks, Or.inl ⟨epoch', state', ⟨_, rfl⟩, rfl⟩⟩
  · dsimp only at hhit hentry
    subst hhit
    have hlookup : (f.cachePool.lookup now S.region.regionId).2 =
        some { entry with lastAccess := now } := by
      simp only [CachePool.lookup, hentry, Option.map_some]
    have hpool := hshrinks.trans (CachePool.shrinks_lookup now S.region.regionId)
    dsimp only
    generalize f.cachePool.lookup now S.region.regionId = looked at hlookup hpool
    obtain ⟨cachePool, found⟩ := looked
    dsimp only at hlookup hpool
    subst hlookup
    have hranges : d.fetchAgent.cachePool.ranges S.region.regionId =
        some (entry.poolOffset.toNat, entry.len.toNat) := by
      apply hshrinks.ranges
      simp only [CachePool.ranges, hentry, Option.map_some]
    obtain ⟨bytes, hbytes⟩ := h.exists_copy hranges
    refine ⟨{ f with cachePool }, hregions, hpool, Or.inr ?_⟩
    dsimp only
    split_ifs with hgt
    · refine ⟨bytes, _, hbytes, rfl, ?_⟩
      intro hin
      exact absurd hgt (h.readCopy hbytes hranges hin).1
    · refine ⟨bytes, _, hbytes, rfl, ?_⟩
      intro hin
      have hread := (h.readCopy hbytes hranges hin).2
      have hsame : ∀ offset len missing, readDevice { d with fetchAgent := { f with cachePool } }
          (d.poolMrHandle.getD 0) offset len missing =
            d.readDevice (d.poolMrHandle.getD 0) offset len missing := fun _ _ _ => rfl
      rw [hsame, hread]
      rfl

theorem Replica.regionInvalidate (newEpoch : UInt64) :
    Replica S (d.regionInvalidate S.region.regionId newEpoch).1 ∧
      ∀ bytes, (d.regionInvalidate S.region.regionId newEpoch).1.copyOf S.region.regionId =
        some bytes → d.copyOf S.region.regionId = some bytes := by
  have hpool := d.fetchAgent.shrinks_receiveInvalidate S.region.regionId newEpoch
  rw [Daemon.regionInvalidate, if_neg h.enabled]
  constructor
  · exact h.withAgent (d.fetchAgent.sameRegions_receiveInvalidate _ newEpoch) hpool
  · intro bytes hbytes
    exact copyOf_withAgent hpool hbytes

theorem Replica.verbWriteVa_remote (vaOffset offset : UInt64) (data : List UInt8)
    {sent : Except UbError (UInt16 × DataExtHeader)} (hsent : d.ubWriteRemote
      (d.homeAddr S.region (S.region.baseOffset + vaOffset + offset)) data = sent) :
    (∀ e, sent = .error e →
      d.verbWriteVa (UbVa.new S.region.regionId vaOffset) offset data =
        (d, .answered (.error e.display))) ∧
    ∀ dst ext, sent = .ok (dst, ext) →
      d.verbWriteVa (UbVa.new S.region.regionId vaOffset) offset data =
        (d, .sending dst ext data) := by
  obtain ⟨epoch, state, hstate, hregion⟩ := h.region
  have hsame : d.ubWriteRemote (d.homeAddr { S.region with epoch, state }
      (S.region.baseOffset + vaOffset + offset)) data = sent := hsent
  constructor
  · rintro e rfl
    simp only [Daemon.verbWriteVa, if_neg h.enabled, UbVa.regionId_new, UbVa.offset_new, hregion]
    cases state with
    | home => exact absurd rfl hstate
    | shared => simp only [hsame]
    | invalid => simp only [hsame]
  · rintro dst ext rfl
    simp only [Daemon.verbWriteVa, if_neg h.enabled, UbVa.regionId_new, UbVa.offset_new, hregion]
    cases state with
    | home => exact absurd rfl hstate
    | shared => simp only [hsame]
    | invalid => simp only [hsame]

/-- A write at another node is refused or becomes a frame for the home node. -/
theorem Replica.verbWriteVa_cases (vaOffset offset : UInt64) (data : List UInt8) :
    (∃ e, d.verbWriteVa (UbVa.new S.region.regionId vaOffset) offset data =
      (d, .answered (.error e))) ∨
    ∃ ext, ext.mrHandle = S.region.mrHandle ∧
      d.verbWriteVa (UbVa.new S.region.regionId vaOffset) offset data =
        (d, .sending S.region.homeNodeId ext data) := by
  have hresolves := h.resolves (S.region.baseOffset + vaOffset + offset)
  have hremote := h.verbWriteVa_remote vaOffset offset data rfl
  generalize d.homeAddr S.region (S.region.baseOffset + vaOffset + offset) = addr
    at hresolves hremote
  unfold ubWriteRemote at hremote
  split_ifs at hremote
  · exact Or.inl ⟨_, hremote.1 _ rfl⟩
  · cases hlookup : d.mrCache.lookupByAddr addr with
    | none =>
      rw [hlookup] at hremote
      exact Or.inl ⟨_, hremote.1 _ rfl⟩
    | some entry =>
      rw [hlookup] at hremote
      obtain ⟨howner, hhandle⟩ := hresolves entry hlookup
      refine Or.inr ⟨remoteExt .write entry addr 0, hhandle, ?_⟩
      rw [← howner]
      exact hremote.2 _ _ rfl

/-- The request of a fetch goes to the home node and names the start of the region. -/
theorem Replica.ubReadRemote_eq (epoch : UInt64) (state : RegionState) (f : FetchAgent)
    (len : UInt32) (opaqueId : UInt64) :
    ∃ ext : DataExtHeader, ext.mrHandle = S.region.mrHandle ∧
      ext.ubAddr.offset = S.region.baseOffset ∧
      ubReadRemote { d with fetchAgent := f }
          (homeAddr { d with fetchAgent := f } { S.region with epoch, state } S.region.baseOffset)
          len opaqueId =
        .ok (S.region.homeNodeId, ext, BigEndian.put 4 len.toNat) := by
  obtain ⟨entry, hentry⟩ := Option.isSome_iff_exists.mp h.reaches
  obtain ⟨howner, hhandle⟩ := h.resolves _ entry hentry
  refine ⟨remoteExt .readReq entry (d.homeAddr S.region S.region.baseOffset) opaqueId, hhandle,
    UbAddr.offset_new _ _ _ _ _, ?_⟩
  have hsame : homeAddr { d with fetchAgent := f } { S.region with epoch, state }
      S.region.baseOffset = d.homeAddr S.region S.region.baseOffset := rfl
  rw [ubReadRemote, hsame, hentry, ← howner]

end

theorem storeFetched_eq {handle : UInt32} {mr : MrEntry} {poolOffset : UInt64}
    (hhandle : d.poolMrHandle = some handle) (hmr : d.host.mrTable.lookup handle = some mr)
    (hfits : poolOffset.toNat + fullData.length ≤ (d.host.memory mr.device).capacity) :
    d.storeFetched poolOffset fullData =
      { d with host := Managed.overwrite d.host mr.device poolOffset.toNat fullData } := by
  simp only [storeFetched, hhandle, Option.bind_some, hmr, Device.write_eq, if_pos hfits]
  rfl

/-- Room for a copy of `len` bytes ends inside the pool. -/
def RoomInPool (d : Daemon) (len : UInt64) : Prop :=
  d.fetchAgent.cachePool.allocator.allocated + len ≤ d.fetchAgent.cachePool.allocator.totalLen →
    (d.fetchAgent.cachePool.allocator.baseOffset +
      d.fetchAgent.cachePool.allocator.allocated).toNat + len.toNat ≤ memoryPoolSize

theorem fetchedPart_eq {offset : UInt64} {len : UInt32}
    (h : offset.toNat + len.toNat ≤ fullData.length) :
    fetchedPart fullData offset len = Bytes.slice fullData offset.toNat len.toNat := by
  unfold fetchedPart
  split_ifs with hlt
  · rfl
  · have hlen : len.toNat = 0 := by omega
    rw [hlen, Bytes.slice, List.take_zero]
    rfl

theorem finishReadVa_snd (now : Instant) (region : RegionInfo) (offset : UInt64) (len : UInt32)
    (fullData : List UInt8) :
    (d.finishReadVa now region offset len fullData).2 = fetchedPart fullData offset len := by
  unfold Daemon.finishReadVa
  split <;> rfl

/-- The end of a fetch: the bytes are the new copy, or the cache had no room and at
most dropped the old one. -/
theorem Replica.finishReadVa (h : d.Replica S) (now : Instant) {region : RegionInfo}
    (offset : UInt64) (len : UInt32) (hid : region.regionId = S.region.regionId)
    (hlen : region.len = S.region.len) (hdata : fullData.length = S.region.len.toNat)
    (hroom : d.RoomInPool S.region.len) :
    Replica S (d.finishReadVa now region offset len fullData).1 ∧
      ∀ bytes, (d.finishReadVa now region offset len fullData).1.copyOf S.region.regionId =
          some bytes →
        if (d.fetchAgent.completeFetch now region.regionId region.len region.epoch).2.isOk then
          bytes = fullData
        else d.copyOf S.region.regionId = some bytes := by
  have hregions := d.fetchAgent.sameRegions_completeFetch now region.regionId region.len
    region.epoch
  have hcases := d.fetchAgent.completeFetch_cases now region.regionId region.len region.epoch
  rw [hid, hlen] at hregions hcases ⊢
  unfold Daemon.finishReadVa
  rw [hid, hlen]
  generalize d.fetchAgent.completeFetch now S.region.regionId S.region.len region.epoch =
    completed at hregions hcases
  obtain ⟨f, result⟩ := completed
  rcases hcases with ⟨⟨e, herror⟩, hshrinks⟩ | ⟨entry, hok, hinserted⟩
  · dsimp only at herror hregions hshrinks
    subst herror
    refine ⟨h.withAgent hregions hshrinks, ?_⟩
    intro bytes hbytes
    exact copyOf_withAgent hshrinks hbytes
  · dsimp only at hok hregions hinserted
    subst hok
    obtain ⟨handle, mr, hhandle, hmr, hcapacity⟩ := h.pool
    have hend : entry.poolOffset.toNat + S.region.len.toNat ≤ memoryPoolSize := by
      rw [hinserted.poolOffset]
      exact hroom hinserted.fits
    have hsize : (d.host.memory mr.device).data.length = memoryPoolSize := hcapacity
    have hfits : entry.poolOffset.toNat + fullData.length ≤
        (d.host.memory mr.device).data.length := by
      rw [hsize, hdata]
      exact hend
    have hstore : storeFetched { d with fetchAgent := f } entry.poolOffset fullData =
        { d with
          fetchAgent := f
          host := Managed.overwrite d.host mr.device entry.poolOffset.toNat fullData } :=
      storeFetched_eq hhandle hmr hfits
    dsimp only
    rw [hstore]
    obtain ⟨epoch, state, hstate, hlookup⟩ := h.region
    obtain ⟨epoch', state', hlookup', hhome⟩ := hregions _ _ hlookup
    refine ⟨⟨h.enabled, ⟨epoch', state', fun hs => hstate (hhome hs), hlookup'⟩, h.resolves,
      h.reaches, ⟨handle, mr, hhandle, hmr, ?_⟩, ?_⟩, ?_⟩
    · simp only [Managed.overwrite, Function.update_self, Device.capacity]
      rw [Bytes.length_splice hfits, hsize]
    · intro r hr
      obtain rfl := Option.some.inj (hinserted.ranges_self.symm.trans hr)
      exact ⟨rfl, hend⟩
    · intro bytes hbytes
      simp only [copyOf, hhandle, Option.bind_some, Managed.overwrite, hmr, hinserted.ranges_self,
        Option.map_some, Function.update_self, ← hdata, Bytes.slice_splice hfits,
        Option.some.injEq] at hbytes
      exact hbytes.symm

/-! ## The writer lock -/

theorem acquireWriter_fst (d : Daemon) (now : Instant) (va : UbVa) :
    ∃ coherence, (d.acquireWriter now va).1 = { d with coherence } := by
  unfold Daemon.acquireWriter
  split_ifs
  · exact ⟨d.coherence, rfl⟩
  · exact ⟨_, rfl⟩

theorem releaseWriter_fst (d : Daemon) (va : UbVa) :
    ∃ coherence, (d.releaseWriter va).1 = { d with coherence } := by
  unfold Daemon.releaseWriter
  split_ifs
  · exact ⟨d.coherence, rfl⟩
  · split <;> exact ⟨_, rfl⟩

end Daemon
end UniBus.Managed
