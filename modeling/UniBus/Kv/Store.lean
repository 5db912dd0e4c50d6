import UniBus.DataPlane.VerbAccess

/-!
# The key-value store of the daemon

Slots of a fixed size in a memory region: a key, a value and a version. A request
takes at most two steps on its slot, one on the version or the whole slot and one
on the key and the value. The node that owns the region makes them on the device
itself; every other node sends frames. The two ways compute the place of a slot
differently, and they meet exactly in regions at the start of a device.
-/
namespace UniBus.Kv

open DataPlane Wire

def kvSlotSize : ℕ := 104

def kvKeyLen : ℕ := 32

def kvValueLen : ℕ := 64

def kvVersionOffset : ℕ := 96

/-- Cut or filled with zeros to the given length. -/
def padString (s : List UInt8) (len : ℕ) : List UInt8 :=
  s.take len ++ List.replicate (len - s.length) 0

/-- The bytes that a request stores, key and value. -/
def kvData (key value : List UInt8) : List UInt8 :=
  padString key kvKeyLen ++ padString value kvValueLen

@[simp] theorem length_padString (s : List UInt8) (len : ℕ) : (padString s len).length = len := by
  simp only [padString, List.length_append, List.length_take, List.length_replicate]
  omega

@[simp] theorem length_kvData (key value : List UInt8) : (kvData key value).length = 96 := by
  simp [kvData, kvKeyLen, kvValueLen]

def slotOffset (slot : UInt32) : UInt64 := slot.toUInt64 * UInt64.ofNat kvSlotSize

theorem toNat_slotOffset (slot : UInt32) : (slotOffset slot).toNat = slot.toNat * 104 := by
  have hslot := slot.toNat_lt
  rw [slotOffset, UInt64.toNat_mul, UInt32.toNat_toUInt64]
  exact Nat.mod_eq_of_lt (by simp [kvSlotSize]; omega)

/-! ## Setup -/

/-- A device of its own for every store. The NPU's is measured in whole MiB. -/
def kvDevice (deviceKind : String) (totalLen : UInt64) : Device :=
  if deviceKind = "npu" then
    let sizeMib := (totalLen + 1024 * 1024 - 1) / (1024 * 1024)
    ⟨.npu, 1, List.replicate ((max sizeMib 1).toNat * 1024 * 1024) 0⟩
  else ⟨.memory, 0, List.replicate totalLen.toNat 0⟩

/-- A write whose failure is ignored. -/
def tryWrite (d : Device) (offset : UInt64) (buf : List UInt8) : Device :=
  ((d.write offset buf).toOption).getD d

/-- The slots are cleared on the device, counted from its first byte. -/
def clearSlots (d : Device) (slots : UInt32) : Device :=
  (List.range slots.toNat).foldl (fun d i =>
    let slotBase := slotOffset (UInt32.ofNat i)
    let d := tryWrite d (slotBase + UInt64.ofNat kvVersionOffset) (Bytes.putLe 8 0)
    tryWrite d slotBase (List.replicate kvSlotSize 0)) d

def kvPerms : MrPerms := (MrPerms.read.union .write).union .atomic

/-- Registers a new device, which gets the reference `ref`, and clears its slots. -/
def kvInit (h : Host) (ref : DeviceRef) (deviceKind : String) (slots : UInt32) :
    Except UbError (Host × UbAddr × UInt32) :=
  let totalLen := slotOffset slots
  let memory := Function.update h.memory ref (kvDevice deviceKind totalLen)
  match h.mrTable.register memory ref totalLen kvPerms with
  | .error e => .error e
  | .ok (mrTable, addr, handle) =>
    .ok ({ h with mrTable, memory := Function.update memory ref (clearSlots (memory ref) slots) },
      addr, handle)

/-- A region for slots, as it is while the store is in use. -/
structure KvRegion (h : Host) (e : MrEntry) (slots : UInt32) : Prop where
  listed : h.mrTable.lookup e.handle = some e
  active : (h.mrTable.cells e.handle).state = .active
  perms : e.perms = kvPerms
  len : e.len = slotOffset slots
  capacity : e.len.toNat ≤ (h.memory e.device).capacity

theorem capacity_tryWrite (d : Device) (offset : UInt64) (buf : List UInt8) :
    (tryWrite d offset buf).capacity = d.capacity := by
  rw [tryWrite, Device.write_eq]
  split_ifs with hfit
  · exact Bytes.length_splice hfit
  · rfl

theorem capacity_clearSlots (d : Device) (slots : UInt32) :
    (clearSlots d slots).capacity = d.capacity := by
  unfold clearSlots
  generalize List.range slots.toNat = is
  induction is generalizing d with
  | nil => rfl
  | cons i is ih => rw [List.foldl_cons, ih, capacity_tryWrite, capacity_tryWrite]

theorem le_capacity_kvDevice (deviceKind : String) (slots : UInt32) :
    (slotOffset slots).toNat ≤ (kvDevice deviceKind (slotOffset slots)).capacity := by
  have hslots := slots.toNat_lt
  have htotal := toNat_slotOffset slots
  unfold kvDevice
  split_ifs
  · simp only [Device.capacity, List.length_replicate]
    generalize slotOffset slots = total at htotal ⊢
    have hone : (1 : UInt64).toNat = 1 := rfl
    have hmib : (1024 * 1024 : UInt64).toNat = 1048576 := rfl
    have hsum : (total + 1024 * 1024).toNat = total.toNat + 1048576 := by
      rw [UInt64.toNat_add, hmib]
      omega
    have hle : (1 : UInt64) ≤ total + 1024 * 1024 := by
      rw [UInt64.le_iff_toNat_le]
      omega
    have hdiv : ((total + 1024 * 1024 - 1) / (1024 * 1024)).toNat =
        (total.toNat + 1048575) / 1048576 := by
      rw [UInt64.toNat_div, UInt64.toNat_sub_of_le _ _ hle, hmib]
      omega
    generalize (total + 1024 * 1024 - 1) / (1024 * 1024) = sizeMib at hdiv ⊢
    have hmax : max sizeMib 1 = if sizeMib ≤ 1 then 1 else sizeMib := rfl
    rw [hmax]
    split_ifs with hsmall
    · have hsmall := UInt64.le_iff_toNat_le.mp hsmall
      omega
    · omega
  · simp [Device.capacity]

theorem register_ok {t t' : MrTable} {mem : Memory} {device : DeviceRef} {len : UInt64}
    {perms : MrPerms} {addr : UbAddr} {handle : UInt32}
    (hreg : t.register mem device len perms = .ok (t', addr, handle)) :
    ∃ e : MrEntry, t'.lookup handle = some e ∧ (t'.cells handle).state = .active ∧
      e.handle = handle ∧ e.device = device ∧ e.len = len ∧ e.perms = perms ∧
      e.baseUbAddr = addr := by
  unfold MrTable.register at hreg
  by_cases hzero : len = 0
  · simp [hzero] at hreg
  · simp only [if_neg hzero, Except.ok.injEq, Prod.mk.injEq] at hreg
    obtain ⟨rfl, rfl, rfl⟩ := hreg
    refine ⟨newEntry mem t ⟨device, len, perms⟩, ?_, ?_, rfl, rfl, rfl, rfl, rfl⟩
    · exact AList.lookup_insert _
    · simp

theorem kvInit_region {h h' : Host} {ref : DeviceRef} {deviceKind : String} {slots : UInt32}
    {addr : UbAddr} {handle : UInt32}
    (hinit : kvInit h ref deviceKind slots = .ok (h', addr, handle)) :
    ∃ e, KvRegion h' e slots ∧ e.handle = handle ∧ e.device = ref ∧ e.baseUbAddr = addr := by
  unfold kvInit at hinit
  dsimp only at hinit
  split at hinit
  · cases hinit
  · rename_i mrTable addr' handle' hreg
    cases hinit
    obtain ⟨e, hlookup, hactive, rfl, rfl, hlen, hperms, haddr⟩ := register_ok hreg
    refine ⟨e, ⟨hlookup, hactive, hperms, hlen, ?_⟩, rfl, rfl, haddr⟩
    simp [hlen, capacity_clearSlots, le_capacity_kvDevice]

/-! ## Requests -/

inductive KvRequest
  | put (key value : List UInt8)
  | get (key : List UInt8)
  | cas (key : List UInt8) (expectVersion : UInt64) (value : List UInt8)
  deriving DecidableEq, Repr

inductive KvResponse
  | stored (version : UInt64)
  | found (key value : List UInt8) (version : UInt64)
  | swapped (oldVersion newVersion : UInt64)
  | casFailed (currentVersion expectedVersion : UInt64)
  | keyMismatch (expectedKey foundKey : List UInt8)
  | shortRead (len : ℕ)
  | error (e : UbError)
  deriving DecidableEq, Repr

/-- Where a request stands. -/
inductive KvTask
  | bump (key value : List UInt8)
  | storePut (version : UInt64) (key value : List UInt8)
  | swap (key : List UInt8) (expectVersion : UInt64) (value : List UInt8)
  | storeCas (oldVersion newVersion : UInt64) (key value : List UInt8)
  | fetch (key : List UInt8)
  | done (response : KvResponse)
  deriving DecidableEq, Repr

def KvRequest.start : KvRequest → KvTask
  | put key value => .bump key value
  | get key => .fetch key
  | cas key expectVersion value => .swap key expectVersion value

/-- The parts of a slot that a step starts at. -/
inductive SlotPart
  | data
  | version
  deriving DecidableEq, Repr

def SlotPart.offset : SlotPart → UInt64
  | data => 0
  | version => UInt64.ofNat kvVersionOffset

/-- What `kv_get` makes of the bytes of a slot. -/
def readSlot (key data : List UInt8) : KvResponse :=
  if data.length < kvSlotSize then .shortRead data.length
  else
    let keyBytes := data.take kvKeyLen
    let valueBytes := Bytes.slice data kvKeyLen kvValueLen
    let version := UInt64.ofNat (Bytes.getLe (Bytes.slice data kvVersionOffset 8))
    if keyBytes ≠ padString key kvKeyLen ∧ version > 0 then .keyMismatch key keyBytes
    else .found keyBytes valueBytes version

namespace KvTask

/-- The next step of a request on its slot. -/
def next : KvTask → Option (SlotPart × VerbOp)
  | bump .. => some (.version, .atomicFaa 1)
  | storePut _ key value => some (.data, .write (kvData key value))
  | swap _ expectVersion _ => some (.version, .atomicCas expectVersion (expectVersion + 1))
  | storeCas _ _ key value => some (.data, .write (kvData key value))
  | fetch _ => some (.data, .read (UInt32.ofNat kvSlotSize))
  | done _ => none

/-- How a request goes on with the result of its step. A compare-and-swap does not
look at the result of its write. -/
def resume : KvTask → Except UbError VerbValue → KvTask
  | storeCas oldVersion newVersion .., _ => .done (.swapped oldVersion newVersion)
  | done response, _ => .done response
  | _, .error e => .done (.error e)
  | bump key value, .ok (.word old) => .storePut (old + 1) key value
  | storePut version .., .ok .done => .done (.stored version)
  | swap key expectVersion value, .ok (.word old) =>
    if old = expectVersion then .storeCas old (expectVersion + 1) key value
    else .done (.casFailed old expectVersion)
  | fetch key, .ok (.bytes data) => .done (readSlot key data)
  -- no verb returns a value of another kind
  | _, .ok _ => .done (.error (.internal "unexpected value"))

end KvTask

/-! ## A cluster of nodes -/

/-- What the requests of all nodes act on. Frames reach their node and are handled
there one at a time. -/
structure Cluster where
  host : UInt16 → Host
  mrCache : UInt16 → MrCacheTable

/-- Device operations, each with the node it was made on. -/
abbrev Touched := List (UInt16 × Access)

/-- The address that many bytes further on. -/
def shift (addr : UbAddr) (n : UInt64) : UbAddr :=
  .new addr.podId addr.nodeId addr.deviceId (addr.offset + n) addr.reserved

@[simp] theorem offset_shift (addr : UbAddr) (n : UInt64) :
    (shift addr n).offset = addr.offset + n :=
  UbAddr.offset_new ..

/-- Where a request finds its slot: on a device of its node, or at an address of
another node. -/
inductive SlotPort
  | device (entry : MrEntry) (offset : UInt64)
  | fabric (addr : UbAddr)

/-- What a remote verb returns. A write does not wait for its handler; every other
verb waits for a response. -/
def answered : VerbOp → Option VerbValue → Except UbError VerbValue
  | .write _, _ => .ok .done
  | _, none => .error .timeout
  | _, some value => .ok value

namespace Cluster

variable (c : Cluster)

def setHost (node : UInt16) (h : Host) : Cluster :=
  { c with host := Function.update c.host node h }

def setDevice (node : UInt16) (r : DeviceRef) (d : Device) : Cluster :=
  c.setHost node { c.host node with memory := Function.update (c.host node).memory r d }

/-- An operation on a device of the own node, past the checks of the verbs. -/
def deviceVerb (node : UInt16) (entry : MrEntry) (offset : UInt64) (op : VerbOp) :
    Cluster × Touched × Except UbError VerbValue :=
  match op.tryDevice ((c.host node).memory entry.device) offset with
  | .error err => (c, [], .error err)
  | .ok (d, value) =>
    (c.setDevice node entry.device d, [(node, op.accessAt entry.device offset)], .ok value)

/-- A remote verb, with the frame it sends to the owner of the region. -/
def fabricVerb (node : UInt16) (addr : UbAddr) (opaqueId : UInt64) (op : VerbOp) :
    Cluster × Touched × Except UbError VerbValue :=
  if ¬op.Fits then (c, [], .error .payloadTooLarge)
  else
    match (c.mrCache node).lookupByAddr addr with
    | none => (c, [], .error .addrInvalid)
    | some entry =>
      let owner := entry.ownerNode
      let (host, access) :=
        op.deliver (c.host owner) owner node entry.remoteMrHandle addr opaqueId
      (c.setHost owner host, access.toList.map fun a => (owner, a),
        answered op (op.runRemote (c.host owner) owner node entry.remoteMrHandle addr opaqueId).2)

/-- The branch that a request takes. -/
def locate (node : UInt16) (addr : UbAddr) (slot : UInt32) : SlotPort :=
  match (c.host node).mrTable.lookupByAddr addr with
  | some (entry, offsetInMr) => .device entry (offsetInMr + slotOffset slot)
  | none => .fabric (shift addr (slotOffset slot))

def verb (node : UInt16) (opaqueId : UInt64) (part : SlotPart) (op : VerbOp) :
    SlotPort → Cluster × Touched × Except UbError VerbValue
  | .device entry offset => c.deviceVerb node entry (offset + part.offset) op
  | .fabric addr => c.fabricVerb node (shift addr part.offset) opaqueId op

def kvStep (node : UInt16) (port : SlotPort) (opaqueId : UInt64) (task : KvTask) :
    Cluster × Touched × KvTask :=
  match task.next with
  | none => (c, [], task)
  | some (part, op) =>
    let (c, touched, result) := c.verb node opaqueId part op port
    (c, touched, task.resume result)

/-- A request of a node, with nothing in between. -/
def kvCall (node : UInt16) (addr : UbAddr) (slot : UInt32) (opaqueId : UInt64) (req : KvRequest) :
    Cluster × Touched × KvTask :=
  let port := c.locate node addr slot
  let first := c.kvStep node port opaqueId req.start
  let second := first.1.kvStep node port opaqueId first.2.2
  (second.1, first.2.1 ++ second.2.1, second.2.2)

end Cluster

end UniBus.Kv
