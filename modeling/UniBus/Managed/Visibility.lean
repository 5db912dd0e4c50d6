import UniBus.Managed.Sharing
import UniBus.Managed.Storage

/-!
# Visibility of writes

What reads of a shared region return, over the log of a run: the bytes that the
region had at the home node at some moment between the start of the read and its
answer, as long as no read is served by a copy older than the last write.
-/
namespace UniBus.Managed

open DataPlane

def writesIn (log : List ShareEvent) : List AppliedWrite :=
  log.filterMap fun
    | .applied write => some write
    | _ => none

@[simp] theorem writesIn_append (log events : List ShareEvent) :
    writesIn (log ++ events) = writesIn log ++ writesIn events :=
  List.filterMap_append

def startedIds (log : List ShareEvent) : List ℕ :=
  log.filterMap fun
    | .started id _ => some id
    | _ => none

@[simp] theorem startedIds_append (log events : List ShareEvent) :
    startedIds (log ++ events) = startedIds log ++ startedIds events :=
  List.filterMap_append

theorem mem_startedIds {log : List ShareEvent} {id : ℕ} {read : StartedRead}
    (h : .started id read ∈ log) : id ∈ startedIds log :=
  List.mem_filterMap.mpr ⟨_, h, rfl⟩

section
variable (S : SharedRegion) (start : List UInt8)

/-- The bytes of the home pool after some writes. -/
def contentAfter (writes : List AppliedWrite) : List UInt8 :=
  writes.foldl
    (fun bytes write => Bytes.splice bytes (S.region.baseOffset + write.offset).toNat write.data)
    start

theorem contentAfter_concat (writes : List AppliedWrite) (write : AppliedWrite) :
    contentAfter S start (writes ++ [write]) =
      Bytes.splice (contentAfter S start writes)
        (S.region.baseOffset + write.offset).toNat write.data := by
  rw [contentAfter, List.foldl_append]
  rfl

def AppliedWrite.InPool (write : AppliedWrite) : Prop :=
  (S.region.baseOffset + write.offset).toNat + write.data.length ≤ memoryPoolSize

variable {S start}

theorem length_contentAfter {writes : List AppliedWrite} (hstart : start.length = memoryPoolSize)
    (hwrites : ∀ write ∈ writes, write.InPool S) :
    (contentAfter S start writes).length = memoryPoolSize := by
  induction writes using List.reverseRecOn with
  | nil => exact hstart
  | append_singleton writes write ih =>
    have hbefore := ih fun write' hmem => hwrites write' (List.mem_append_left _ hmem)
    have hfits := hwrites write (List.mem_append_right _ (List.mem_singleton_self write))
    rw [contentAfter_concat, Bytes.length_splice (by rw [hbefore]; exact hfits), hbefore]

variable (S start)

/-- The bytes of the region after the first `version` writes. -/
structure Snapshot (writes : List AppliedWrite) (version : ℕ) (bytes : List UInt8) : Prop where
  version_le : version ≤ writes.length
  bytes_eq : bytes = Bytes.slice (contentAfter S start (writes.take version))
    S.region.baseOffset.toNat S.region.len.toNat

variable {S start}

theorem Snapshot.append {writes : List AppliedWrite} {version : ℕ} {bytes : List UInt8}
    (h : Snapshot S start writes version bytes) (more : List AppliedWrite) :
    Snapshot S start (writes ++ more) version bytes := by
  refine ⟨?_, ?_⟩
  · rw [List.length_append]
    exact h.version_le.trans (Nat.le_add_right _ _)
  · rw [List.take_append_of_le_length h.version_le]
    exact h.bytes_eq

theorem Snapshot.slice_eq {writes : List AppliedWrite} {version : ℕ} {bytes : List UInt8}
    (h : Snapshot S start writes version bytes) {offset len : ℕ}
    (hin : offset + len ≤ S.region.len.toNat) :
    Bytes.slice bytes offset len =
      Bytes.slice (contentAfter S start (writes.take version))
        (S.region.baseOffset.toNat + offset) len := by
  rw [h.bytes_eq, Bytes.slice_slice hin]

end

/-! ## The state of the world -/

def StartedRead.InRegion (S : SharedRegion) (read : StartedRead) : Prop :=
  read.offset.toNat + read.len.toNat ≤ S.region.len.toNat

/-- The request of a fetch under way. -/
structure Fetch.Valid (S : SharedRegion) (fetch : Fetch) : Prop where
  node_ne : fetch.read.node ≠ S.region.homeNodeId
  regionId_eq : fetch.region.regionId = S.region.regionId
  len_eq : fetch.region.len = S.region.len
  dst_eq : fetch.dst = S.region.homeNodeId
  handle_eq : fetch.ext.mrHandle = S.region.mrHandle
  offset_eq : fetch.ext.ubAddr.offset = S.region.baseOffset
  payload_eq : fetch.payload = BigEndian.put 4 S.region.len.toUInt32.toNat

/-- The home node has the bytes that the writes left, every copy and every reply
under way is a snapshot. -/
structure World.Sharing (S : SharedRegion) (start : List UInt8) (w : World)
    (writes : List AppliedWrite) : Prop where
  home : (w.nodes S.region.homeNodeId).Serves S
  replica : ∀ n, n ≠ S.region.homeNodeId → (w.nodes n).Replica S
  start_length : start.length = memoryPoolSize
  inPool : ∀ write ∈ writes, write.InPool S
  content : (w.nodes S.region.homeNodeId).homeBytes S = contentAfter S start writes
  applied : w.applied = writes.length
  copy : ∀ n, n ≠ S.region.homeNodeId → ∀ bytes,
    (w.nodes n).copyOf S.region.regionId = some bytes →
      Snapshot S start writes (w.copyVersion n) bytes
  frame : ∀ n, ∀ frame ∈ w.frames n, frame.dst = S.region.homeNodeId ∧
    frame.ext.mrHandle = S.region.mrHandle
  fetch : ∀ id fetch, w.fetches id = some fetch → fetch.Valid S ∧
    ∀ bytes version, fetch.reply = some (bytes, version) → Snapshot S start writes version bytes

namespace World.Sharing

variable {S : SharedRegion} {start : List UInt8} {w : World} {writes : List AppliedWrite}
  {node : UInt16} {d : Daemon}

section
variable (h : w.Sharing S start writes)
include h

theorem current :
    Snapshot S start writes w.applied
      (Bytes.slice ((w.nodes S.region.homeNodeId).homeBytes S) S.region.baseOffset.toNat
        S.region.len.toNat) := by
  rw [h.applied]
  refine ⟨le_refl _, ?_⟩
  rw [List.take_length, h.content]

theorem length_eq {version : ℕ} {bytes : List UInt8}
    (hsnapshot : Snapshot S start writes version bytes) : bytes.length = S.region.len.toNat := by
  rw [hsnapshot.bytes_eq]
  apply Bytes.length_slice
  have hlength : (contentAfter S start (writes.take version)).length = memoryPoolSize :=
    length_contentAfter h.start_length fun write hmem => h.inPool write (List.mem_of_mem_take hmem)
  rw [hlength]
  exact S.fits

theorem setReplica (hnode : node ≠ S.region.homeNodeId) (hd : d.Replica S) {version : ℕ}
    (hcopy : ∀ bytes, d.copyOf S.region.regionId = some bytes →
      Snapshot S start writes version bytes) :
    ((w.setNode node d).setCopyVersion node version).Sharing S start writes := by
  have hhome : ((w.setNode node d).setCopyVersion node version).nodes S.region.homeNodeId =
      w.nodes S.region.homeNodeId :=
    Function.update_of_ne (Ne.symm hnode) _ _
  refine ⟨?_, ?_, h.start_length, h.inPool, ?_, h.applied, ?_, h.frame, h.fetch⟩
  · rw [hhome]
    exact h.home
  · intro n hn
    by_cases hn' : n = node
    · subst hn'
      simpa using hd
    · simpa [hn'] using h.replica n hn
  · rw [hhome]
    exact h.content
  · intro n hn bytes hbytes
    by_cases hn' : n = node
    · subst hn'
      rw [setCopyVersion_copyVersion, Function.update_self]
      apply hcopy
      simpa using hbytes
    · rw [setCopyVersion_copyVersion, Function.update_of_ne hn']
      apply h.copy n hn bytes
      simpa [hn'] using hbytes

/-- A node other than the home changes and keeps at most its copy. -/
theorem keepCopy (hnode : node ≠ S.region.homeNodeId) (hd : d.Replica S)
    (hcopy : ∀ bytes, d.copyOf S.region.regionId = some bytes →
      (w.nodes node).copyOf S.region.regionId = some bytes) :
    (w.setNode node d).Sharing S start writes := by
  have hset := h.setReplica hnode hd fun bytes hbytes =>
    h.copy node hnode bytes (hcopy bytes hbytes)
  have hsame : (w.setNode node d).setCopyVersion node (w.copyVersion node) = w.setNode node d :=
    setCopyVersion_self _ node
  rwa [hsame] at hset

theorem setHome (hd : d.Serves S)
    (hbytes : d.homeBytes S = (w.nodes S.region.homeNodeId).homeBytes S) :
    (w.setNode S.region.homeNodeId d).Sharing S start writes := by
  refine ⟨?_, ?_, h.start_length, h.inPool, ?_, h.applied, ?_, h.frame, h.fetch⟩
  · simpa using hd
  · intro n hn
    simpa [hn] using h.replica n hn
  · simpa [hbytes] using h.content
  · intro n hn bytes hcopy
    apply h.copy n hn bytes
    simpa [hn] using hcopy

theorem setCoherence (node : UInt16) (coherence : CoherenceManager) :
    (w.setNode node { w.nodes node with coherence }).Sharing S start writes := by
  by_cases hnode : node = S.region.homeNodeId
  · subst hnode
    have hhome := h.home
    exact h.setHome ⟨hhome.enabled, hhome.region, hhome.pool, hhome.active, hhome.capacity⟩ rfl
  · have hnode' := h.replica node hnode
    exact h.keepCopy hnode ⟨hnode'.enabled, hnode'.region, hnode'.resolves, hnode'.reaches,
      hnode'.pool, hnode'.placed⟩ fun bytes hbytes => hbytes

theorem apply {write : AppliedWrite} (hwrite : write.InPool S) :
    (w.setHost S.region.homeNodeId
      (overwrite (w.nodes S.region.homeNodeId).host S.pool.device
        (S.region.baseOffset + write.offset).toNat write.data)).countWrite.Sharing S start
          (writes ++ [write]) := by
  refine ⟨?_, ?_, h.start_length, ?_, ?_, ?_, ?_, h.frame, ?_⟩
  · simpa [setHost_nodes] using h.home.overwrite hwrite
  · intro n hn
    simpa [setHost_nodes, hn] using h.replica n hn
  · intro write' hmem
    rcases List.mem_append.mp hmem with hold | hnew
    · exact h.inPool write' hold
    · obtain rfl := List.mem_singleton.mp hnew
      exact hwrite
  · simp only [countWrite_nodes, setHost_nodes, Function.update_self, Daemon.homeBytes_overwrite,
      contentAfter_concat, h.content]
  · simp [setHost, h.applied]
  · intro n hn bytes hbytes
    apply Snapshot.append
    apply h.copy n hn bytes
    simpa [setHost_nodes, hn] using hbytes
  · intro id fetch hfetch
    obtain ⟨hvalid, hreply⟩ := h.fetch id fetch hfetch
    refine ⟨hvalid, ?_⟩
    intro bytes version hbytes
    exact (hreply bytes version hbytes).append [write]

theorem setFrames {frames : List WriteFrame}
    (hframes : ∀ frame ∈ frames, frame.dst = S.region.homeNodeId ∧
      frame.ext.mrHandle = S.region.mrHandle) :
    (w.setFrames node frames).Sharing S start writes := by
  refine ⟨h.home, h.replica, h.start_length, h.inPool, h.content, h.applied, h.copy, ?_, h.fetch⟩
  intro n frame hframe
  rw [setFrames_frames] at hframe
  by_cases hn : n = node
  · subst hn
    rw [Function.update_self] at hframe
    exact hframes frame hframe
  · rw [Function.update_of_ne hn] at hframe
    exact h.frame n frame hframe

theorem setFetch {id : ℕ} {fetch : Option Fetch}
    (hfetch : ∀ fetch', fetch = some fetch' → fetch'.Valid S ∧
      ∀ bytes version, fetch'.reply = some (bytes, version) →
        Snapshot S start writes version bytes) :
    (w.setFetch id fetch).Sharing S start writes := by
  refine ⟨h.home, h.replica, h.start_length, h.inPool, h.content, h.applied, h.copy, h.frame, ?_⟩
  intro id' fetch' hfetch'
  rw [setFetch_fetches] at hfetch'
  by_cases hid : id' = id
  · subst hid
    rw [Function.update_self] at hfetch'
    exact hfetch fetch' hfetch'
  · rw [Function.update_of_ne hid] at hfetch'
    exact h.fetch id' fetch' hfetch'

theorem writeVa_home {vaOffset offset : UInt64} {data : List UInt8}
    (hfits : AppliedWrite.InPool S ⟨S.region.homeNodeId, vaOffset + offset, data⟩) :
    w.writeVa S.region S.region.homeNodeId vaOffset offset data =
      ((w.setHost S.region.homeNodeId
        (overwrite (w.nodes S.region.homeNodeId).host S.pool.device
          (S.region.baseOffset + (vaOffset + offset)).toNat data)).countWrite,
        [.applied ⟨S.region.homeNodeId, vaOffset + offset, data⟩]) := by
  rcases h.home.verbWriteVa_cases vaOffset offset data with ⟨hbeyond, -⟩ | ⟨-, hok⟩
  · exact absurd hfits hbeyond
  · simp only [World.writeVa, hok]
    rfl

theorem readVa_hit (hnode : node ≠ S.region.homeNodeId) {now : Instant} {poolOffset : UInt64}
    {region : RegionInfo} (hhit : ((w.nodes node).fetchAgent.readVa now S.region.regionId).2 =
      .cacheHit poolOffset region) {vaOffset offset : UInt64} {len : UInt32}
    (hin : StartedRead.InRegion S ⟨node, vaOffset + offset, len⟩) :
    (w.readVa S.region node now vaOffset offset len).2 =
      [.started w.nextRead ⟨node, vaOffset + offset, len⟩,
        .answered w.nextRead ⟨node, vaOffset + offset, len⟩
          (.ok (Bytes.slice (contentAfter S start (writes.take (w.copyVersion node)))
            (S.region.baseOffset.toNat + (vaOffset + offset).toNat) len.toNat))] := by
  obtain ⟨f, -, -, hcases⟩ := (h.replica node hnode).verbReadVa_cases now vaOffset offset len
  rcases hcases with ⟨epoch, state, ⟨region', hmiss⟩, -⟩ | ⟨bytes, result, hbytes, hread, hresult⟩
  · cases hhit.symm.trans hmiss
  · simp only [World.readVa, countRead_nodes, hread]
    rw [hresult hin, (h.copy node hnode bytes hbytes).slice_eq hin]

theorem serveFetch_eq {id : ℕ} {fetch : Fetch} (hfetch : w.fetches id = some fetch)
    (hreply : fetch.reply = none) :
    w.serveFetch id = (w.setFetch id (some { fetch with
      reply := some (Bytes.slice ((w.nodes S.region.homeNodeId).homeBytes S)
        S.region.baseOffset.toNat S.region.len.toNat, w.applied) }), []) := by
  obtain ⟨hvalid, -⟩ := h.fetch id fetch hfetch
  obtain ⟨access, hserved⟩ := h.home.handleReadReq_eq hvalid.handle_eq hvalid.offset_eq
  have hwaiting : ¬ fetch.reply.isSome := by simp [hreply]
  unfold World.serveFetch
  rw [hfetch]
  dsimp only
  rw [if_neg hwaiting, hvalid.payload_eq]
  have hdst : (w.nodes fetch.dst).host = (w.nodes S.region.homeNodeId).host := by
    rw [hvalid.dst_eq]
  rw [hdst, hserved]
  dsimp only
  rw [← hdst, setHost_self]

theorem dropFetch (id : ℕ) :
    (w.setFetch id none).Sharing S start writes := by
  apply h.setFetch
  intro fetch' hfetch'
  cases hfetch'

theorem countRead : w.countRead.Sharing S start writes :=
  ⟨h.home, h.replica, h.start_length, h.inPool, h.content, h.applied, h.copy, h.frame, h.fetch⟩

end

end World.Sharing

/-! ## What the log records -/

/-- A read inside the region was started before it is answered, and the answer is
the content after some number of writes: at least those applied before the start,
at most those applied before the answer. -/
def ReadsSnapshot (S : SharedRegion) (start : List UInt8) (before : List ShareEvent) :
    ShareEvent → Prop
  | .answered id read result => ∃ earlier later, before = earlier ++ .started id read :: later ∧
      (read.InRegion S → ∃ version, (writesIn earlier).length ≤ version ∧
        version ≤ (writesIn before).length ∧
        result = .ok (Bytes.slice (contentAfter S start ((writesIn before).take version))
          (S.region.baseOffset.toNat + read.offset.toNat) read.len.toNat))
  | _ => True

/-- A fetch under way has been started, and its reply is no older than that. -/
def Fetch.Recorded (log : List ShareEvent) (id : ℕ) (fetch : Fetch) : Prop :=
  ∃ earlier later, log = earlier ++ .started id fetch.read :: later ∧
    ∀ bytes version, fetch.reply = some (bytes, version) → (writesIn earlier).length ≤ version

theorem Fetch.Recorded.append {log : List ShareEvent} {id : ℕ} {fetch : Fetch}
    (h : fetch.Recorded log id) (events : List ShareEvent) :
    fetch.Recorded (log ++ events) id := by
  obtain ⟨earlier, later, rfl, hreply⟩ := h
  exact ⟨earlier, later ++ events, by rw [List.append_assoc, List.cons_append], hreply⟩

structure World.Coherent (S : SharedRegion) (start : List UInt8) (w : World)
    (log : List ShareEvent) : Prop where
  sharing : w.Sharing S start (writesIn log)
  ids : startedIds log = List.range w.nextRead
  recorded : ∀ id fetch, w.fetches id = some fetch → fetch.Recorded log id
  reads : Runs.Justified (ReadsSnapshot S start) log

/-- The event is neither the start nor the answer of a read. -/
def ShareEvent.Plain : ShareEvent → Prop
  | .started .. | .answered .. => False
  | _ => True

theorem startedIds_plain {events : List ShareEvent} (h : ∀ ev ∈ events, ev.Plain) :
    startedIds events = [] := by
  rw [startedIds, List.filterMap_eq_nil_iff]
  intro ev hev
  cases ev with
  | started id read => exact absurd (h _ hev) (by simp [ShareEvent.Plain])
  | acquired | released | applied | answered => rfl

namespace World.Coherent

variable {S : SharedRegion} {start : List UInt8} {w w' : World} {log : List ShareEvent}

section
variable (h : w.Coherent S start log)
include h

theorem plain {events : List ShareEvent} (hevents : ∀ ev ∈ events, ev.Plain)
    (hnext : w'.nextRead = w.nextRead) (hfetches : w'.fetches = w.fetches)
    (hsharing : w'.Sharing S start (writesIn (log ++ events))) :
    w'.Coherent S start (log ++ events) := by
  refine ⟨hsharing, ?_, ?_, ?_⟩
  · rw [startedIds_append, startedIds_plain hevents, List.append_nil, h.ids, hnext]
  · intro id fetch hfetch
    rw [hfetches] at hfetch
    exact (h.recorded id fetch hfetch).append events
  · apply h.reads.append
    intro mid ev after heq
    have hplain := hevents ev (by simp [heq])
    cases ev with
    | answered id read result => exact absurd hplain (by simp [ShareEvent.Plain])
    | acquired | released | applied | started => trivial

theorem readAtOnce {read : StartedRead} {result : Except String (List UInt8)}
    (hnext : w'.nextRead = w.nextRead + 1) (hfetches : w'.fetches = w.fetches)
    (hsharing : w'.Sharing S start (writesIn log))
    (hresult : read.InRegion S → result = .ok (Bytes.slice (contentAfter S start (writesIn log))
      (S.region.baseOffset.toNat + read.offset.toNat) read.len.toNat)) :
    w'.Coherent S start (log ++ [.started w.nextRead read, .answered w.nextRead read result]) := by
  have hstarted : Runs.Justified (ReadsSnapshot S start) (log ++ [.started w.nextRead read]) :=
    h.reads.concat trivial
  have hwrites : writesIn (log ++ [.started w.nextRead read]) = writesIn log := by
    rw [writesIn_append]
    exact List.append_nil _
  refine ⟨?_, ?_, ?_, ?_⟩
  · rw [writesIn_append]
    exact (List.append_nil (writesIn log)).symm ▸ hsharing
  · rw [startedIds_append, h.ids, hnext, List.range_succ]
    rfl
  · intro id fetch hfetch
    rw [hfetches] at hfetch
    exact (h.recorded id fetch hfetch).append _
  · rw [List.append_cons]
    apply hstarted.concat
    refine ⟨log, [], rfl, ?_⟩
    intro hin
    refine ⟨(writesIn log).length, le_refl _, ?_, ?_⟩
    · rw [hwrites]
    · rw [hwrites, List.take_length]
      exact hresult hin

theorem readLater {fetch : Fetch} (hnext : w'.nextRead = w.nextRead + 1)
    (hfetches : w'.fetches = w.fetches) (hsharing : w'.Sharing S start (writesIn log))
    (hvalid : fetch.Valid S) (hreply : fetch.reply = none) :
    (w'.setFetch w.nextRead (some fetch)).Coherent S start
      (log ++ [.started w.nextRead fetch.read]) := by
  refine ⟨?_, ?_, ?_, h.reads.concat trivial⟩
  · rw [writesIn_append]
    refine (List.append_nil (writesIn log)).symm ▸ hsharing.setFetch ?_
    intro fetch' hfetch'
    cases hfetch'
    refine ⟨hvalid, ?_⟩
    intro bytes version hbytes
    rw [hreply] at hbytes
    cases hbytes
  · rw [startedIds_append, h.ids, setFetch_nextRead, hnext, List.range_succ]
    rfl
  · intro id fetch' hfetch'
    by_cases hid : id = w.nextRead
    · subst hid
      rw [setFetch_fetches, Function.update_self] at hfetch'
      cases hfetch'
      refine ⟨log, [], rfl, ?_⟩
      intro bytes version hbytes
      rw [hreply] at hbytes
      cases hbytes
    · rw [setFetch_fetches, Function.update_of_ne hid, hfetches] at hfetch'
      exact (h.recorded id fetch' hfetch').append _

variable (node : UInt16)

theorem acquireWriter (now : Instant) :
    (w.step S.region (.acquireWriter node now)).1.Coherent S start
      (log ++ (w.step S.region (.acquireWriter node now)).2) := by
  obtain ⟨coherence, hd⟩ := (w.nodes node).acquireWriter_fst now (UbVa.new S.region.regionId 0)
  refine h.plain (by simp [step, ShareEvent.Plain]) rfl rfl ?_
  have hsharing := h.sharing.setCoherence node coherence
  rw [← hd] at hsharing
  simpa [step, writesIn] using hsharing

theorem releaseWriter :
    (w.step S.region (.releaseWriter node)).1.Coherent S start
      (log ++ (w.step S.region (.releaseWriter node)).2) := by
  obtain ⟨coherence, hd⟩ := (w.nodes node).releaseWriter_fst (UbVa.new S.region.regionId 0)
  refine h.plain (by simp [step, ShareEvent.Plain]) rfl rfl ?_
  have hsharing := h.sharing.setCoherence node coherence
  rw [← hd] at hsharing
  simpa [step, writesIn] using hsharing

theorem regionInvalidate (newEpoch : UInt64) :
    (w.step S.region (.regionInvalidate node newEpoch)).1.Coherent S start
      (log ++ (w.step S.region (.regionInvalidate node newEpoch)).2) := by
  refine h.plain (by simp [step]) rfl rfl ?_
  simp only [step, List.append_nil]
  by_cases hnode : node = S.region.homeNodeId
  · subst hnode
    rw [h.sharing.home.regionInvalidate_eq, setNode_self]
    exact h.sharing
  · obtain ⟨hreplica, hcopy⟩ := (h.sharing.replica node hnode).regionInvalidate newEpoch
    exact h.sharing.keepCopy hnode hreplica hcopy

theorem applied {write : AppliedWrite} (hwrite : write.InPool S) :
    (w.setHost S.region.homeNodeId
      (overwrite (w.nodes S.region.homeNodeId).host S.pool.device
        (S.region.baseOffset + write.offset).toNat write.data)).countWrite.Coherent S start
          (log ++ [.applied write]) := by
  refine h.plain (by simp [ShareEvent.Plain]) rfl rfl ?_
  rw [writesIn_append]
  exact h.sharing.apply hwrite

theorem setFrames {node : UInt16} {frames : List WriteFrame}
    (hframes : ∀ frame ∈ frames, frame.dst = S.region.homeNodeId ∧
      frame.ext.mrHandle = S.region.mrHandle) :
    (w.setFrames node frames).Coherent S start log :=
  ⟨h.sharing.setFrames hframes, h.ids, h.recorded, h.reads⟩

theorem writeVa (vaOffset offset : UInt64) (data : List UInt8) :
    (w.writeVa S.region node vaOffset offset data).1.Coherent S start
      (log ++ (w.writeVa S.region node vaOffset offset data).2) := by
  have hsharing := h.sharing
  unfold World.writeVa
  by_cases hnode : node = S.region.homeNodeId
  · subst hnode
    rcases hsharing.home.verbWriteVa_cases vaOffset offset data with
      ⟨-, e, herror⟩ | ⟨hfits, hok⟩
    · simp only [herror, setNode_self, List.append_nil]
      exact h
    · have hwrite : AppliedWrite.InPool S ⟨S.region.homeNodeId, vaOffset + offset, data⟩ := hfits
      simp only [hok]
      simpa only [setHost] using h.applied hwrite
  · rcases (hsharing.replica node hnode).verbWriteVa_cases vaOffset offset data with
      ⟨e, herror⟩ | ⟨ext, hhandle, hsending⟩
    · simp only [herror, setNode_self, List.append_nil]
      exact h
    · simp only [hsending, setNode_self]
      rw [List.append_nil]
      apply h.setFrames
      intro frame hframe
      rcases List.mem_append.mp hframe with hold | hnew
      · exact hsharing.frame node frame hold
      · obtain rfl := List.mem_singleton.mp hnew
        exact ⟨rfl, hhandle⟩

theorem deliverWrite :
    (w.deliverWrite S.region node).1.Coherent S start
      (log ++ (w.deliverWrite S.region node).2) := by
  unfold World.deliverWrite
  cases hframes : w.frames node with
  | nil => simpa using h
  | cons frame rest =>
    obtain ⟨hdst, hhandle⟩ := h.sharing.frame node frame (by simp [hframes])
    have hpopped : (w.setFrames node rest).Coherent S start log := by
      apply h.setFrames
      intro frame' hframe'
      exact h.sharing.frame node frame' (by simp [hframes, hframe'])
    dsimp only
    rw [hdst]
    rcases hpopped.sharing.home.handleWrite_cases frame.data hhandle with
      ⟨warning, hrefused⟩ | ⟨hfits, access, happlied⟩
    · simp only [hrefused, List.append_nil]
      rw [setHost_self]
      exact hpopped
    · have hoffset : S.region.baseOffset + (frame.ext.ubAddr.offset - S.region.baseOffset) =
          frame.ext.ubAddr.offset := by
        rw [UInt64.add_comm, UInt64.sub_add_cancel]
      have hwrite : AppliedWrite.InPool S
          ⟨node, frame.ext.ubAddr.offset - S.region.baseOffset, frame.data⟩ := by
        rw [AppliedWrite.InPool, hoffset]
        exact hfits
      have hcoherent := hpopped.applied hwrite
      rw [hoffset] at hcoherent
      simp only [happlied]
      exact hcoherent

theorem readVa (now : Instant) (vaOffset offset : UInt64) (len : UInt32)
    (hcurrent : (w.nodes node).copyOf S.region.regionId ≠ none → w.copyVersion node = w.applied) :
    (w.readVa S.region node now vaOffset offset len).1.Coherent S start
      (log ++ (w.readVa S.region node now vaOffset offset len).2) := by
  have hsharing := h.sharing
  unfold World.readVa
  by_cases hnode : node = S.region.homeNodeId
  · subst hnode
    obtain ⟨result, hanswered, hresult⟩ := hsharing.home.verbReadVa_eq now vaOffset offset len
    have hsame : w.countRead.setNode S.region.homeNodeId (w.nodes S.region.homeNodeId) =
        w.countRead := setNode_self w.countRead _
    simp only [countRead_nodes, hanswered, hsame]
    refine h.readAtOnce rfl rfl hsharing.countRead ?_
    intro hin
    rw [← hsharing.content]
    exact hresult hin
  · obtain ⟨f, hregions, hpool, hcases⟩ :=
      (hsharing.replica node hnode).verbReadVa_cases now vaOffset offset len
    have hkept : (w.countRead.setNode node { w.nodes node with fetchAgent := f }).Sharing S start
        (writesIn log) := by
      apply hsharing.countRead.keepCopy hnode
      · exact (hsharing.replica node hnode).withAgent hregions hpool
      · intro bytes hbytes
        exact Daemon.copyOf_withAgent hpool hbytes
    rcases hcases with ⟨epoch, state, -, hfetching⟩ | ⟨bytes, result, hbytes, hanswered, hresult⟩
    · obtain ⟨ext, hhandle, hoffset, hrequest⟩ :=
        (hsharing.replica node hnode).ubReadRemote_eq epoch state f S.region.len.toUInt32
          (UInt64.ofNat w.nextRead)
      simp only [countRead_nodes, hfetching, hrequest]
      exact h.readLater rfl rfl hkept ⟨hnode, rfl, rfl, rfl, hhandle, hoffset, rfl⟩ rfl
    · simp only [countRead_nodes, hanswered]
      refine h.readAtOnce rfl rfl hkept ?_
      intro hin
      rw [hresult hin]
      -- the copy is as new as the home node's bytes
      have hsnapshot := hsharing.copy node hnode bytes hbytes
      rw [hcurrent (by simp [hbytes]), hsharing.applied] at hsnapshot
      rw [hsnapshot.slice_eq hin, List.take_length]

theorem serveFetch (id : ℕ) :
    (w.serveFetch id).1.Coherent S start (log ++ (w.serveFetch id).2) := by
  cases hfetch : w.fetches id with
  | none => simpa [World.serveFetch, hfetch] using h
  | some fetch =>
    cases hreply : fetch.reply with
    | some reply => simpa [World.serveFetch, hfetch, hreply] using h
    | none =>
      obtain ⟨hvalid, -⟩ := h.sharing.fetch id fetch hfetch
      obtain ⟨earlier, later, hlog, -⟩ := h.recorded id fetch hfetch
      rw [h.sharing.serveFetch_eq hfetch hreply, List.append_nil]
      refine ⟨?_, h.ids, ?_, h.reads⟩
      · apply h.sharing.setFetch
        intro fetch' hfetch'
        cases hfetch'
        refine ⟨⟨hvalid.node_ne, hvalid.regionId_eq, hvalid.len_eq, hvalid.dst_eq,
          hvalid.handle_eq, hvalid.offset_eq, hvalid.payload_eq⟩, ?_⟩
        intro bytes version hbytes
        cases hbytes
        exact h.sharing.current
      · intro id' fetch' hfetch'
        by_cases hid : id' = id
        · subst hid
          rw [setFetch_fetches, Function.update_self] at hfetch'
          cases hfetch'
          refine ⟨earlier, later, hlog, ?_⟩
          intro bytes version hbytes
          cases hbytes
          rw [h.sharing.applied, hlog, writesIn_append, List.length_append]
          exact Nat.le_add_right _ _
        · rw [setFetch_fetches, Function.update_of_ne hid] at hfetch'
          exact h.recorded id' fetch' hfetch'

/-- A fetch that is over: its reply is a snapshot between start and answer. -/
theorem readDone {id : ℕ} {fetch : Fetch} {bytes : List UInt8} {version : ℕ}
    (hfetch : w.fetches id = some fetch) (hreply : fetch.reply = some (bytes, version))
    (hnext : w'.nextRead = w.nextRead) (hfetches : w'.fetches = Function.update w.fetches id none)
    (hsharing : w'.Sharing S start (writesIn log)) :
    w'.Coherent S start (log ++ [.answered id fetch.read
      (.ok (Daemon.fetchedPart bytes fetch.read.offset fetch.read.len))]) := by
  have hsnapshot := (h.sharing.fetch id fetch hfetch).2 bytes version hreply
  obtain ⟨earlier, later, hlog, hversion⟩ := h.recorded id fetch hfetch
  refine ⟨?_, ?_, ?_, ?_⟩
  · rw [writesIn_append]
    exact (List.append_nil (writesIn log)).symm ▸ hsharing
  · rw [startedIds_append, h.ids, hnext]
    exact List.append_nil _
  · intro id' fetch' hfetch'
    rw [hfetches] at hfetch'
    by_cases hid : id' = id
    · subst hid
      rw [Function.update_self] at hfetch'
      cases hfetch'
    · rw [Function.update_of_ne hid] at hfetch'
      exact (h.recorded id' fetch' hfetch').append _
  · apply h.reads.concat
    refine ⟨earlier, later, hlog, ?_⟩
    intro hin
    refine ⟨version, hversion bytes version hreply, hsnapshot.version_le, ?_⟩
    rw [Daemon.fetchedPart_eq, hsnapshot.slice_eq hin]
    rw [h.sharing.length_eq hsnapshot]
    exact hin

theorem finishFetch (id : ℕ) (now : Instant) (hroom : ∀ fetch, w.fetches id = some fetch →
      (w.nodes fetch.read.node).RoomInPool fetch.region.len) :
    (w.finishFetch id now).1.Coherent S start (log ++ (w.finishFetch id now).2) := by
  unfold World.finishFetch
  cases hfetch : w.fetches id with
  | none => simpa using h
  | some fetch =>
    cases hreply : fetch.reply with
    | none =>
      simp only [hreply]
      simpa using h
    | some reply =>
      obtain ⟨bytes, version⟩ := reply
      obtain ⟨hvalid, hsnapshots⟩ := h.sharing.fetch id fetch hfetch
      have hsnapshot := hsnapshots bytes version hreply
      have hroom := hroom fetch hfetch
      rw [hvalid.len_eq] at hroom
      obtain ⟨hreplica, hcopy⟩ := (h.sharing.replica _ hvalid.node_ne).finishReadVa now
        fetch.read.offset fetch.read.len hvalid.regionId_eq hvalid.len_eq
        (h.sharing.length_eq hsnapshot) hroom
      simp only [hreply, Daemon.finishReadVa_snd]
      split_ifs with hcached
      · simp only [if_pos hcached] at hcopy
        have hset := h.sharing.setReplica hvalid.node_ne hreplica fun bytes' hbytes' =>
          (hcopy bytes' hbytes').symm ▸ hsnapshot
        exact h.readDone hfetch hreply rfl rfl (hset.dropFetch id)
      · simp only [if_neg hcached] at hcopy
        have hkept := h.sharing.keepCopy hvalid.node_ne hreplica hcopy
        exact h.readDone hfetch hreply rfl rfl (hkept.dropFetch id)

end

end World.Coherent

/-- A read at a node with a copy finds it no older than the last write, and a copy
is only placed inside the pool. -/
def CopyCurrent (S : SharedRegion) (w : World) (_ : List ShareEvent) : ShareInput → Prop
  | .readVa node .. =>
    (w.nodes node).copyOf S.region.regionId ≠ none → w.copyVersion node = w.applied
  | .finishFetch id _ => ∀ fetch, w.fetches id = some fetch →
    (w.nodes fetch.read.node).RoomInPool fetch.region.len
  | _ => True

variable {w : World} {S : SharedRegion} {start : List UInt8} {log : List ShareEvent} {id : ℕ}

theorem World.Coherent.step {i : ShareInput} (h : w.Coherent S start log)
    (hi : CopyCurrent S w log i) :
    (w.step S.region i).1.Coherent S start (log ++ (w.step S.region i).2) := by
  cases i with
  | acquireWriter node now => exact h.acquireWriter node now
  | releaseWriter node => exact h.releaseWriter node
  | regionInvalidate node newEpoch => exact h.regionInvalidate node newEpoch
  | writeVa node vaOffset offset data => exact h.writeVa node vaOffset offset data
  | deliverWrite node => exact h.deliverWrite node
  | readVa node now vaOffset offset len => exact h.readVa node now vaOffset offset len hi
  | serveFetch id => exact h.serveFetch id
  | finishFetch id now => exact h.finishFetch id now hi

/-- The region is set up on all nodes and nobody has used it: no copy, no write and
no fetch under way. -/
structure World.Fresh (S : SharedRegion) (w : World) : Prop where
  home : (w.nodes S.region.homeNodeId).Serves S
  replica : ∀ n, n ≠ S.region.homeNodeId → (w.nodes n).Replica S
  copy : ∀ n, n ≠ S.region.homeNodeId → (w.nodes n).copyOf S.region.regionId = none
  frames : ∀ n, w.frames n = []
  fetches : ∀ id, w.fetches id = none
  nextRead : w.nextRead = 0
  applied : w.applied = 0

theorem World.Fresh.coherent (h : w.Fresh S) :
    w.Coherent S ((w.nodes S.region.homeNodeId).homeBytes S) [] := by
  refine ⟨⟨h.home, h.replica, h.home.capacity, ?_, rfl, h.applied, ?_, ?_, ?_⟩, ?_, ?_,
    Runs.justified_nil⟩
  · intro write hwrite
    cases hwrite
  · intro n hn bytes hbytes
    rw [h.copy n hn] at hbytes
    cases hbytes
  · intro n frame hframe
    rw [h.frames n] at hframe
    cases hframe
  · intro id fetch hfetch
    rw [h.fetches id] at hfetch
    cases hfetch
  · rw [h.nextRead]
    rfl
  · intro id fetch hfetch
    rw [h.fetches id] at hfetch
    cases hfetch

/-! ## The last write is what reads return -/

/-- The write covers all bytes of the read. -/
def AppliedWrite.Covers (write : AppliedWrite) (read : StartedRead) : Prop :=
  write.offset.toNat ≤ read.offset.toNat ∧
    read.offset.toNat + read.len.toNat ≤ write.offset.toNat + write.data.length

/-- A read that is started and answered after a write was applied, with no other
write in between, returns what was written. -/
def WritesVisible (S : SharedRegion) (log : List ShareEvent) : Prop :=
  ∀ before write mid after, log = before ++ .applied write :: (mid ++ after) → writesIn mid = [] →
    ∀ id read result, .started id read ∈ mid → .answered id read result ∈ mid →
      read.InRegion S → write.Covers read →
        result = .ok (Bytes.slice write.data (read.offset.toNat - write.offset.toNat)
          read.len.toNat)

theorem slice_contentAfter_concat {writes : List AppliedWrite} {write : AppliedWrite}
    {read : StartedRead} (hlength : (contentAfter S start writes).length = memoryPoolSize)
    (hfits : write.InPool S) (hin : read.InRegion S) (hcovers : write.Covers read) :
    Bytes.slice (contentAfter S start (writes ++ [write]))
        (S.region.baseOffset.toNat + read.offset.toNat) read.len.toNat =
      Bytes.slice write.data (read.offset.toNat - write.offset.toNat) read.len.toNat := by
  obtain ⟨hlow, hhigh⟩ := hcovers
  have hregion := S.fits
  rw [StartedRead.InRegion] at hin
  rw [memoryPoolSize] at hregion
  have hpos : (S.region.baseOffset + write.offset).toNat =
      S.region.baseOffset.toNat + write.offset.toNat := Checked.toNat_addU64 (by omega)
  have hread : S.region.baseOffset.toNat + read.offset.toNat =
      (S.region.baseOffset + write.offset).toNat + (read.offset.toNat - write.offset.toNat) := by
    omega
  rw [contentAfter_concat, hread]
  apply Bytes.slice_splice_inside
  · rw [hlength]
    exact hfits
  · omega

theorem World.Coherent.started_once {log earlier later : List ShareEvent}
    (h : w.Coherent S start log) (hlog : log = earlier ++ later) {read read' : StartedRead}
    (hlater : ShareEvent.started id read ∈ later) : ShareEvent.started id read' ∉ earlier := by
  intro hearlier
  have hids : (startedIds log).Nodup := by
    rw [h.ids]
    exact List.nodup_range
  rw [hlog, startedIds_append] at hids
  exact List.disjoint_of_nodup_append hids (mem_startedIds hearlier) (mem_startedIds hlater)

theorem World.Coherent.writesVisible (h : w.Coherent S start log) : WritesVisible S log := by
  intro before write mid after hlog hquiet id read result hstarted hanswered hin hcovers
  obtain ⟨mid₁, mid₂, rfl⟩ := List.append_of_mem hanswered
  have hquiet₁ : writesIn mid₁ = [] := by
    rw [writesIn_append] at hquiet
    exact (List.append_eq_nil_iff.mp hquiet).1
  have hlog' : log = ((before ++ [ShareEvent.applied write]) ++ mid₁) ++
      ShareEvent.answered id read result :: (mid₂ ++ after) := by
    rw [hlog]
    simp
  obtain ⟨earlier, later, hbefore, hsnapshot⟩ := h.reads _ _ _ hlog'
  obtain ⟨version, hlow, hhigh, hresult⟩ := hsnapshot hin
  -- the read was started after the write, since it is started only once
  have hlate : ∃ rest, earlier = (before ++ [ShareEvent.applied write]) ++ rest := by
    rcases Runs.append_split hbefore with ⟨rest, hearly, -⟩ | ⟨rest, hearlier, -⟩
    · have hsplit : log = (before ++ [ShareEvent.applied write]) ++
          ((mid₁ ++ ShareEvent.answered id read result :: mid₂) ++ after) := by
        rw [hlog]
        simp
      have hmem : ShareEvent.started id read ∈ before ++ [ShareEvent.applied write] := by
        rw [hearly]
        simp
      exact absurd hmem (h.started_once hsplit (List.mem_append_left _ hstarted))
    · exact ⟨rest, hearlier⟩
  obtain ⟨rest, rfl⟩ := hlate
  have hwrites : writesIn ((before ++ [ShareEvent.applied write]) ++ mid₁) =
      writesIn before ++ [write] := by
    rw [writesIn_append, writesIn_append, hquiet₁, List.append_nil]
    rfl
  have hcount : version = (writesIn before ++ [write]).length := by
    rw [hwrites] at hhigh
    have hfirst : (writesIn before ++ [write]).length ≤
        (writesIn ((before ++ [ShareEvent.applied write]) ++ rest)).length := by
      rw [writesIn_append, writesIn_append]
      exact (List.prefix_append _ _).length_le
    exact le_antisymm hhigh (hfirst.trans hlow)
  rw [hwrites, hcount, List.take_length] at hresult
  have hwrites' : writesIn log = writesIn before ++ write :: writesIn (mid₁ ++
      ShareEvent.answered id read result :: mid₂ ++ after) := by
    rw [hlog, writesIn_append]
    rfl
  have hfits : write.InPool S := h.sharing.inPool write (by simp [hwrites'])
  have hlength : (contentAfter S start (writesIn before)).length = memoryPoolSize := by
    apply length_contentAfter h.sharing.start_length
    intro write' hmem
    exact h.sharing.inPool write' (by simp [hwrites', hmem])
  rw [hresult, slice_contentAfter_concat hlength hfits hin hcovers]

theorem finishFetch_answers {fetch : Fetch} {reply : List UInt8 × ℕ}
    (hfetch : w.fetches id = some fetch) (hreply : fetch.reply = some reply) (now : Instant) :
    ∃ result, .answered id fetch.read result ∈ (w.finishFetch id now).2 := by
  simp only [World.finishFetch, hfetch, hreply]
  exact ⟨_, List.mem_singleton_self _⟩

/-- A waiting read is answered once the home node has served it and the answer
arrives. -/
theorem World.Coherent.answers (h : w.Coherent S start log) {fetch : Fetch}
    (hfetch : w.fetches id = some fetch) (now : Instant) :
    ∃ result, .answered id fetch.read result ∈
      (Runs.run (World.step S.region) w [.serveFetch id, .finishFetch id now]).2 := by
  have hserved : ∃ fetch' reply, (w.serveFetch id).1.fetches id = some fetch' ∧
      fetch'.read = fetch.read ∧ fetch'.reply = some reply := by
    cases hreply : fetch.reply with
    | some reply => exact ⟨fetch, reply, by simp [World.serveFetch, hfetch, hreply], rfl, hreply⟩
    | none =>
      rw [h.sharing.serveFetch_eq hfetch hreply, setFetch_fetches, Function.update_self]
      exact ⟨_, _, rfl, rfl, rfl⟩
  obtain ⟨fetch', reply, hfetch', hread, hreply⟩ := hserved
  obtain ⟨result, hresult⟩ := finishFetch_answers hfetch' hreply now
  rw [hread] at hresult
  refine ⟨result, ?_⟩
  simp only [Runs.run_cons, Runs.run_nil, World.step, List.append_nil]
  exact List.mem_append_right _ hresult

/-- In every run in which no read is served by a copy older than the last write and
no copy is placed behind the pool, reads return the last write before them, and
every read that waits for its fetch gets an answer. -/
theorem reads_return_last_write (S : SharedRegion) {w : World} (hw : w.Fresh S)
    {inputs : List ShareInput}
    (hinputs : Runs.Meets (World.step S.region) (CopyCurrent S) w [] inputs) :
    WritesVisible S (Runs.run (World.step S.region) w inputs).2 ∧
      ∀ id fetch now, (Runs.run (World.step S.region) w inputs).1.fetches id = some fetch →
        ∃ result, .answered id fetch.read result ∈ (Runs.run (World.step S.region)
          (Runs.run (World.step S.region) w inputs).1
          [.serveFetch id, .finishFetch id now]).2 := by
  have hrun := Runs.run_invariant
    (fun w log i (h : w.Coherent S _ log) hi => h.step hi) hw.coherent hinputs
  rw [List.nil_append] at hrun
  constructor
  · exact hrun.writesVisible
  · intro id fetch now hfetch
    exact hrun.answers hfetch now

/-! ## A region of 4096 bytes at home on node 1 -/

def homeRegion : RegionInfo := ⟨⟨1⟩, 1, 0, 1, 0, 4096, 0, .home⟩

def poolPerms : MrPerms := (MrPerms.read.union .write).union .atomic

def homePool : MrEntry :=
  ⟨1, 0, 0, UInt64.ofNat memoryPoolSize, poolPerms, UbAddr.new 1 1 0 0 0, UbAddr.offset_origin⟩

def sharedRegion : SharedRegion where
  region := homeRegion
  pool := homePool
  state_eq := rfl
  handle_eq := rfl
  base_eq := rfl
  readable := by decide
  writable := by decide
  fits := by decide

def homeDaemon : Daemon :=
  ((Daemon.start defaultConfig).regionAlloc ⟨4096, "normal", none⟩).1

def publishedPool : MrCacheEntry :=
  ⟨1, 1, UbAddr.new 1 1 0 0 0, UInt64.ofNat memoryPoolSize, poolPerms, .memory⟩

def readerDaemon (n : UInt16) : Daemon :=
  ({ Daemon.start { defaultConfig with nodeId := n } with
      mrCache := MrCacheTable.new.insert publishedPool }.regionRegisterRemote homeRegion).1

theorem capacity_poolDevice : poolDevice.capacity = memoryPoolSize := List.length_replicate

theorem serves_homeDaemon : homeDaemon.Serves sharedRegion := by
  refine ⟨by decide, rfl, rfl, rfl, ?_⟩
  exact capacity_poolDevice

theorem replica_readerDaemon (n : UInt16) : (readerDaemon n).Replica sharedRegion := by
  refine ⟨?_, ⟨0, .invalid, by simp, rfl⟩, ?_, ?_, ⟨1, _, rfl, rfl, ?_⟩, ?_⟩
  · exact Bool.noConfusion
  · intro offset entry hentry
    have hknown : (readerDaemon n).mrCache = MrCacheTable.new.insert publishedPool := rfl
    rw [hknown, MrCacheTable.lookupByAddr] at hentry
    obtain ⟨e, he, rfl⟩ := Option.map_eq_some_iff.mp hentry
    obtain rfl := List.mem_singleton.mp (List.mem_of_find?_eq_some he)
    exact ⟨rfl, rfl⟩
  · have hknown : (readerDaemon n).mrCache = MrCacheTable.new.insert publishedPool := rfl
    have haddr : (readerDaemon n).homeAddr sharedRegion.region sharedRegion.region.baseOffset =
        UbAddr.new 1 1 0 0 0 := rfl
    rw [hknown, haddr]
    decide
  · exact capacity_poolDevice
  · intro r hr
    cases hr

def sharedWorld : World where
  nodes := Function.update readerDaemon 1 homeDaemon
  frames := fun _ => []
  fetches := fun _ => none
  nextRead := 0
  applied := 0
  copyVersion := fun _ => 0

theorem fresh_sharedWorld : sharedWorld.Fresh sharedRegion := by
  refine ⟨?_, ?_, ?_, fun _ => rfl, fun _ => rfl, rfl, rfl⟩
  · exact serves_homeDaemon
  · intro n hn
    have hnode : sharedWorld.nodes n = readerDaemon n := Function.update_of_ne hn _ _
    rw [hnode]
    exact replica_readerDaemon n
  · intro n hn
    have hnode : sharedWorld.nodes n = readerDaemon n := Function.update_of_ne hn _ _
    rw [hnode]
    rfl

/-- The first byte of the region, read on node 2. -/
def readByte : StartedRead := ⟨2, 0, 1⟩

def newBytes : List UInt8 := Bytes.slice poolDevice.data 0 4096

theorem slice_newBytes : Bytes.slice newBytes 0 1 = [0] := by
  have hmin : min 1 memoryPoolSize = 1 := by decide
  rw [newBytes, Bytes.slice_slice (by decide)]
  simp only [poolDevice, Bytes.slice, Nat.add_zero, List.drop_zero, List.take_replicate, hmin]
  rfl

theorem length_newBytes : newBytes.length = 4096 := by
  apply Bytes.length_slice
  have hlength : poolDevice.data.length = memoryPoolSize := capacity_poolDevice
  rw [hlength]
  decide

/-- The region as node 2 knows it at first. -/
def invalidRegion : RegionInfo := { homeRegion with state := .invalid }

def firstFetch (reply : Option (List UInt8 × ℕ)) : Fetch :=
  ⟨readByte, invalidRegion, 1,
    Daemon.remoteExt .readReq publishedPool (UbAddr.new 1 1 0 0 0) 0, BigEndian.put 4 4096, reply⟩

/-- The world while the first read waits for its fetch. -/
def fetchingWorld (reply : Option (List UInt8 × ℕ)) : World :=
  sharedWorld.countRead.setFetch 0 (some (firstFetch reply))

theorem step_read : sharedWorld.step sharedRegion.region (.readVa 2 0 0 0 1) =
    (fetchingWorld none, [.started 0 readByte]) := by
  have hsame := World.setNode_self sharedWorld.countRead 2
  rw [fetchingWorld, ← hsame]
  rfl

/-- Node 2 with its copy of the new region. -/
def cachingDaemon : Daemon := ((readerDaemon 2).finishReadVa 0 invalidRegion 0 1 newBytes).1

def cachedWorld : World :=
  (((fetchingWorld (some (newBytes, 0))).setNode 2 cachingDaemon).setFetch 0
    none).setCopyVersion 2 0

theorem coherent_fetchingWorld :
    (fetchingWorld none).Coherent sharedRegion (homeDaemon.homeBytes sharedRegion)
      [.started 0 readByte] := by
  have hread := fresh_sharedWorld.coherent.readVa 2 0 0 0 1 (by intro h; exact absurd rfl h)
  rwa [show sharedWorld.readVa sharedRegion.region 2 0 0 0 1 = _ from step_read] at hread

theorem setFetch_setFetch (w : World) (id : ℕ) (fetch fetch' : Option Fetch) :
    (w.setFetch id fetch).setFetch id fetch' = w.setFetch id fetch' := by
  simp [World.setFetch]

theorem step_serve : (fetchingWorld none).step sharedRegion.region (.serveFetch 0) =
    (fetchingWorld (some (newBytes, 0)), []) := by
  have hwaiting : (fetchingWorld none).fetches 0 = some (firstFetch none) := rfl
  have hserve := coherent_fetchingWorld.sharing.serveFetch_eq hwaiting rfl
  rw [fetchingWorld, setFetch_setFetch, ← fetchingWorld] at hserve
  exact hserve

theorem step_finish :
    (fetchingWorld (some (newBytes, 0))).step sharedRegion.region (.finishFetch 0 0) =
      (cachedWorld, [.answered 0 readByte (.ok [0])]) := by
  have hpart : Daemon.fetchedPart newBytes 0 1 = [0] := by
    rw [Daemon.fetchedPart_eq (by rw [length_newBytes]; decide)]
    exact slice_newBytes
  have hwaiting : (fetchingWorld (some (newBytes, 0))).fetches 0 =
      some (firstFetch (some (newBytes, 0))) := rfl
  have hcached : ((readerDaemon 2).fetchAgent.completeFetch 0 invalidRegion.regionId
      invalidRegion.len invalidRegion.epoch).2.isOk = true := rfl
  have hnode : (fetchingWorld (some (newBytes, 0))).nodes 2 = readerDaemon 2 := rfl
  simp only [World.step, World.finishFetch, hwaiting, firstFetch, readByte, hnode,
    hcached, if_true, Daemon.finishReadVa_snd, hpart]
  rfl

theorem coherent_cachedWorld :
    cachedWorld.Coherent sharedRegion (homeDaemon.homeBytes sharedRegion)
      [.started 0 readByte, .answered 0 readByte (.ok [0])] := by
  have hserved := coherent_fetchingWorld.serveFetch 0
  rw [show (fetchingWorld none).serveFetch 0 = _ from step_serve] at hserved
  have hfinished := hserved.finishFetch 0 0 (by
    intro fetch hfetch
    cases hfetch
    intro _
    decide)
  rw [show (fetchingWorld (some (newBytes, 0))).finishFetch 0 0 = _ from step_finish] at hfinished
  exact hfinished

/-- The world while the home node holds the writer lock. -/
def lockedWorld : World :=
  cachedWorld.setNode 1 (homeDaemon.acquireWriter 0 (UbVa.new ⟨1⟩ 0)).1

theorem step_acquire : cachedWorld.step sharedRegion.region (.acquireWriter 1 0) =
    (lockedWorld, [.acquired 1 (.ok (.granted ⟨1⟩ 0))]) := rfl

/-- The world after the home node has written with the lock held. -/
def writtenWorld : World :=
  (lockedWorld.setHost 1 (overwrite (lockedWorld.nodes 1).host sharedRegion.pool.device
    (sharedRegion.region.baseOffset + (0 + 0)).toNat [7])).countWrite

theorem step_write (h : lockedWorld.Sharing sharedRegion (homeDaemon.homeBytes sharedRegion) []) :
    lockedWorld.step sharedRegion.region (.writeVa 1 0 0 [7]) =
      (writtenWorld, [.applied ⟨1, 0 + 0, [7]⟩]) := by
  have hfits : AppliedWrite.InPool sharedRegion
      ⟨sharedRegion.region.homeNodeId, 0 + 0, [7]⟩ := by
    rw [AppliedWrite.InPool]
    decide
  have hhome : sharedRegion.region.homeNodeId = 1 := rfl
  have hwrite := h.writeVa_home hfits
  rw [hhome] at hwrite
  rw [World.step, writtenWorld]
  exact hwrite

/-- The world after the writer has let go of the lock. -/
def releasedWorld : World :=
  writtenWorld.setNode 1 ((writtenWorld.nodes 1).releaseWriter (UbVa.new ⟨1⟩ 0)).1

theorem releaseWriter_snd (d : Daemon) (host : Host) (va : UbVa) :
    (Daemon.releaseWriter { d with host } va).2 = (d.releaseWriter va).2 := by
  simp only [Daemon.releaseWriter]
  split_ifs
  · rfl
  · split <;> rfl

theorem step_release : writtenWorld.step sharedRegion.region (.releaseWriter 1) =
    (releasedWorld, [.released 1 (.ok 1)]) := by
  have hresult : ((writtenWorld.nodes 1).releaseWriter (UbVa.new ⟨1⟩ 0)).2 = .ok 1 := by
    rw [writtenWorld, World.countWrite_nodes, World.setHost_nodes, Function.update_self,
      releaseWriter_snd]
    rfl
  have hregion : sharedRegion.region.regionId = ⟨1⟩ := rfl
  simp only [World.step, hregion, hresult, releasedWorld]

theorem nodes_releasedWorld : releasedWorld.nodes 2 = cachingDaemon := by
  have hne : (2 : UInt16) ≠ 1 := by decide
  rw [releasedWorld, World.setNode_nodes, Function.update_of_ne hne, writtenWorld,
    World.countWrite_nodes, World.setHost_nodes, Function.update_of_ne hne, lockedWorld,
    World.setNode_nodes, Function.update_of_ne hne, cachedWorld, World.setCopyVersion_nodes,
    World.setFetch_nodes, World.setNode_nodes, Function.update_self]

theorem hit_cachingDaemon : (cachingDaemon.fetchAgent.readVa 0 ⟨1⟩).2 =
    .cacheHit 0 { homeRegion with state := .shared 0 } := by
  rw [cachingDaemon, Daemon.finishReadVa_fetchAgent]
  rfl

theorem slice_homeBytes : Bytes.slice (homeDaemon.homeBytes sharedRegion) 0 1 = [0] := by
  have hnew : Bytes.slice newBytes 0 1 = Bytes.slice poolDevice.data 0 1 := by
    rw [newBytes, Bytes.slice_slice (by decide)]
  exact hnew.symm.trans slice_newBytes

theorem coherent_lockedWorld :
    lockedWorld.Coherent sharedRegion (homeDaemon.homeBytes sharedRegion)
      [.started 0 readByte, .answered 0 readByte (.ok [0]),
        .acquired 1 (.ok (.granted ⟨1⟩ 0))] := by
  have hlocked := coherent_cachedWorld.acquireWriter 1 0
  rwa [step_acquire] at hlocked

theorem coherent_releasedWorld :
    releasedWorld.Coherent sharedRegion (homeDaemon.homeBytes sharedRegion)
      [.started 0 readByte, .answered 0 readByte (.ok [0]), .acquired 1 (.ok (.granted ⟨1⟩ 0)),
        .applied ⟨1, 0, [7]⟩, .released 1 (.ok 1)] := by
  have hwritten := coherent_lockedWorld.step (i := .writeVa 1 0 0 [7]) trivial
  rw [step_write coherent_lockedWorld.sharing] at hwritten
  have hreleased := hwritten.releaseWriter 1
  rw [step_release] at hreleased
  exact hreleased

theorem step_reread : (releasedWorld.step sharedRegion.region (.readVa 2 0 0 0 1)).2 =
    [.started 1 readByte, .answered 1 readByte (.ok [0])] := by
  have hhit : ((releasedWorld.nodes 2).fetchAgent.readVa 0 sharedRegion.region.regionId).2 =
      .cacheHit 0 { homeRegion with state := .shared 0 } := by
    rw [nodes_releasedWorld]
    exact hit_cachingDaemon
  have hin : StartedRead.InRegion sharedRegion ⟨2, 0 + 0, 1⟩ := by
    rw [StartedRead.InRegion]
    decide
  have hread := coherent_releasedWorld.sharing.readVa_hit (by decide) hhit hin
  have hversion : releasedWorld.copyVersion 2 = 0 := rfl
  have hnext : releasedWorld.nextRead = 1 := rfl
  rw [hversion, hnext, List.take_zero] at hread
  have hslice : Bytes.slice (contentAfter sharedRegion (homeDaemon.homeBytes sharedRegion) [])
      (sharedRegion.region.baseOffset.toNat + (0 + 0 : UInt64).toNat) (1 : UInt32).toNat = [0] :=
    slice_homeBytes
  rw [hslice] at hread
  rw [World.step]
  exact hread

theorem replica_cachingDaemon : cachingDaemon.Replica sharedRegion := by
  have hroom : (readerDaemon 2).RoomInPool homeRegion.len := by
    intro _
    decide
  exact ((replica_readerDaemon 2).finishReadVa 0 0 1 rfl rfl length_newBytes hroom).1

theorem copyOf_invalidated :
    ((releasedWorld.step sharedRegion.region (.regionInvalidate 2 1)).1.nodes 2).copyOf ⟨1⟩ =
      none := by
  have hranges : (cachingDaemon.fetchAgent.receiveInvalidate ⟨1⟩ 1).1.cachePool.ranges ⟨1⟩ =
      none := by
    rw [cachingDaemon, Daemon.finishReadVa_fetchAgent]
    rfl
  have hregion : sharedRegion.region.regionId = ⟨1⟩ := rfl
  rw [World.step, World.setNode_nodes, Function.update_self, nodes_releasedWorld, hregion]
  apply Daemon.copyOf_eq_none
  rw [Daemon.regionInvalidate_fetchAgent _ replica_cachingDaemon.enabled]
  exact hranges

/-- A run in which node 2 is told to drop its copy before it reads again. -/
def invalidateBetween : List ShareInput :=
  [.readVa 2 0 0 0 1, .serveFetch 0, .finishFetch 0 0, .acquireWriter 1 0, .writeVa 1 0 0 [7],
    .releaseWriter 1, .regionInvalidate 2 1, .readVa 2 0 0 0 1]

theorem meets_invalidateBetween :
    Runs.Meets (World.step sharedRegion.region) (CopyCurrent sharedRegion) sharedWorld []
      invalidateBetween := by
  have hfresh : CopyCurrent sharedRegion sharedWorld [] (.readVa 2 0 0 0 1) := by
    intro hcopy
    exact absurd rfl hcopy
  have hroom : ∀ log, CopyCurrent sharedRegion (fetchingWorld (some (newBytes, 0))) log
      (.finishFetch 0 0) := by
    intro log fetch hfetch
    cases hfetch
    intro _
    decide
  have hdropped : ∀ log, CopyCurrent sharedRegion
      (releasedWorld.step sharedRegion.region (.regionInvalidate 2 1)).1 log
      (.readVa 2 0 0 0 1) := by
    intro log hcopy
    exact absurd copyOf_invalidated hcopy
  apply Runs.Meets.cons step_read hfresh
  apply Runs.Meets.cons step_serve trivial
  apply Runs.Meets.cons step_finish (hroom _)
  apply Runs.Meets.cons step_acquire trivial
  apply Runs.Meets.cons (step_write coherent_lockedWorld.sharing) trivial
  apply Runs.Meets.cons step_release trivial
  exact ⟨trivial, hdropped _, trivial⟩

theorem reads_return_last_write_invalidated :
    WritesVisible sharedRegion
      (Runs.run (World.step sharedRegion.region) sharedWorld invalidateBetween).2 :=
  (reads_return_last_write sharedRegion fresh_sharedWorld meets_invalidateBetween).1

/-- Node 2 reads a byte of the region, the home node writes it with the lock held
and lets go of the lock, and node 2 reads it again. -/
def readWriteRead : List ShareInput :=
  [.readVa 2 0 0 0 1, .serveFetch 0, .finishFetch 0 0, .acquireWriter 1 0, .writeVa 1 0 0 [7],
    .releaseWriter 1, .readVa 2 0 0 0 1]

/-- The second read returns the byte of the copy, not the one written. -/
theorem copy_hides_write :
    (Runs.run (World.step sharedRegion.region) sharedWorld readWriteRead).2 =
        [.started 0 readByte, .answered 0 readByte (.ok [0]), .acquired 1 (.ok (.granted ⟨1⟩ 0)),
          .applied ⟨1, 0, [7]⟩, .released 1 (.ok 1), .started 1 readByte,
          .answered 1 readByte (.ok [0])] ∧
      ¬ WritesVisible sharedRegion
        (Runs.run (World.step sharedRegion.region) sharedWorld readWriteRead).2 := by
  have hlog : (Runs.run (World.step sharedRegion.region) sharedWorld readWriteRead).2 =
      [.started 0 readByte, .answered 0 readByte (.ok [0]), .acquired 1 (.ok (.granted ⟨1⟩ 0)),
        .applied ⟨1, 0, [7]⟩, .released 1 (.ok 1), .started 1 readByte,
        .answered 1 readByte (.ok [0])] := by
    have hreread := (Runs.log_singleton (World.step sharedRegion.region) _ _).trans step_reread
    have hrelease := Runs.log_cons _ step_release hreread
    have hwrite := Runs.log_cons _ (step_write coherent_lockedWorld.sharing) hrelease
    have hacquire := Runs.log_cons _ step_acquire hwrite
    have hfinish := Runs.log_cons _ step_finish hacquire
    have hserve := Runs.log_cons _ step_serve hfinish
    have hread := Runs.log_cons _ step_read hserve
    exact hread
  refine ⟨hlog, ?_⟩
  rw [hlog]
  intro hvisible
  have hread := hvisible [.started 0 readByte, .answered 0 readByte (.ok [0]),
      .acquired 1 (.ok (.granted ⟨1⟩ 0))] ⟨1, 0, [7]⟩
    [.released 1 (.ok 1), .started 1 readByte, .answered 1 readByte (.ok [0])] [] rfl rfl
    1 readByte (.ok [0]) (by simp) (by simp) (by unfold StartedRead.InRegion; decide)
    (by unfold AppliedWrite.Covers; decide)
  exact absurd hread (by decide)

end UniBus.Managed
