import UniBus.Kv.Store

/-!
# The two ways to a slot

A slot in a region of one node, used by that node on the device and by another
node through frames. The first counts from the start of the device, the second
from the start of the region; both touch the same bytes just in case the region
starts where its device does.
-/
namespace UniBus.Kv

open DataPlane Wire

/-! ## The steps of a request -/

/-- The permissions of a store are enough for every operation. -/
theorem permitted_of_kvPerms {e : MrEntry} (hperms : e.perms = kvPerms) (op : VerbOp) :
    op.Permitted e := by
  have hall : ∀ verb, kvPerms.contains (MrEntry.requiredPerms verb) = true := by
    intro verb
    cases verb <;> decide
  rw [VerbOp.Permitted, hperms]
  exact hall op.verb

namespace KvTask

def Atomic : KvTask → Prop
  | bump .. | swap .. => True
  | _ => False

variable {task : KvTask} {part : SlotPart} {op : VerbOp}

theorem next_inside (h : task.next = some (part, op)) :
    part.offset.toNat + op.count ≤ kvSlotSize ∧ op.Fits := by
  cases task <;> cases h <;> simp [VerbOp.count, VerbOp.Fits, maxPayloadSize, kvSlotSize] <;> decide

theorem next_atomic (h : task.next = some (part, op)) :
    op.IsAtomic ↔ task.Atomic := by
  cases task <;> cases h <;> rfl

theorem next_atomic_part (h : task.next = some (part, op)) (hatomic : op.IsAtomic) :
    part = .version := by
  cases task <;> cases h <;> first | rfl | exact absurd hatomic id

theorem Atomic.next_eq (h : task.Atomic) :
    ∃ op, task.next = some (.version, op) ∧ op.IsAtomic ∧ ∀ buf, op ≠ .write buf := by
  cases task <;> first | exact absurd h id | exact ⟨_, rfl, trivial, fun buf => by simp⟩

theorem resume_not_atomic (task : KvTask) (r : Except UbError VerbValue) :
    ¬(task.resume r).Atomic := by
  fun_cases resume task r <;> simp [Atomic]

theorem next_resume_error (task : KvTask) (e : UbError) :
    (task.resume (.error e)).next = none := by
  cases task <;> rfl

end KvTask

theorem KvRequest.start_next (req : KvRequest) :
    ∃ part op, req.start.next = some (part, op) ∧ ∀ buf, op ≠ .write buf := by
  cases req <;> exact ⟨_, _, rfl, fun buf => by simp⟩

/-! ## One operation -/

theorem answered_some {op : VerbOp} {d d' : Device} {offset : UInt64} {value : VerbValue}
    (h : op.onDevice d offset = some (d', value)) : answered op (some value) = .ok value := by
  cases op with
  | write buf =>
    obtain ⟨device, -, hpair⟩ := Option.map_eq_some_iff.mp h
    cases hpair
    rfl
  | read len => rfl
  | atomicCas expect new => rfl
  | atomicFaa add => rfl

theorem answered_none {op : VerbOp} (hwaits : ∀ buf, op ≠ .write buf) :
    answered op none = .error .timeout := by
  cases op with
  | write buf => exact absurd rfl (hwaits buf)
  | read len => rfl
  | atomicCas expect new => rfl
  | atomicFaa add => rfl

namespace Cluster

variable {c : Cluster} {node : UInt16} {op : VerbOp} {d : Device} {value : VerbValue}

@[simp] theorem mrTable_setDevice (c : Cluster) (node : UInt16) (r : DeviceRef) (d : Device)
    (n : UInt16) : ((c.setDevice node r d).host n).mrTable = (c.host n).mrTable := by
  by_cases hn : n = node
  · subst hn
    simp [setDevice, setHost]
  · simp [setDevice, setHost, hn]

@[simp] theorem memory_setDevice (c : Cluster) (node : UInt16) (r : DeviceRef) (d : Device) :
    ((c.setDevice node r d).host node).memory = Function.update (c.host node).memory r d := by
  simp [setDevice, setHost]

theorem deviceVerb_some {entry : MrEntry} {offset : UInt64}
    (h : op.onDevice ((c.host node).memory entry.device) offset = some (d, value)) :
    c.deviceVerb node entry offset op =
      (c.setDevice node entry.device d, [(node, op.accessAt entry.device offset)], .ok value) := by
  rw [← VerbOp.toOption_tryDevice] at h
  unfold deviceVerb
  cases htry : op.tryDevice ((c.host node).memory entry.device) offset with
  | error err => simp [htry, Except.toOption] at h
  | ok result =>
    simp only [htry, Except.toOption, Option.some.injEq] at h
    rw [h]

theorem deviceVerb_none {entry : MrEntry} {offset : UInt64}
    (h : op.onDevice ((c.host node).memory entry.device) offset = none) :
    ∃ err, c.deviceVerb node entry offset op = (c, [], .error err) := by
  rw [← VerbOp.toOption_tryDevice] at h
  unfold deviceVerb
  cases htry : op.tryDevice ((c.host node).memory entry.device) offset with
  | error err => exact ⟨err, rfl⟩
  | ok result => simp [htry, Except.toOption] at h

section
variable {owner requester : UInt16} {e : MrEntry} {entry : MrCacheEntry} {addr : UbAddr}
  (opaqueId : UInt64)
  (hcached : (c.mrCache requester).lookupByAddr addr = some entry)
  (howner : entry.ownerNode = owner) (hhandle : entry.remoteMrHandle = e.handle)
  (hlisted : (c.host owner).mrTable.lookup e.handle = some e)
  (hle : e.baseOffset ≤ addr.offset) (hfits : op.Fits)
include hcached howner hhandle hlisted hle hfits

theorem fabricVerb_eq :
    c.fabricVerb requester addr opaqueId op =
      let target := VerbOp.remoteTarget (c.host owner).mrTable e.handle addr op
      let effect := op.effect (c.host owner) target addr.offset
      (c.setHost owner effect.1, effect.2.toList.map fun a => (owner, a),
        answered op (VerbOp.onTarget (c.host owner).memory target addr.offset op).2) := by
  subst howner
  rw [fabricVerb, if_neg (not_not.mpr hfits), hcached]
  dsimp only
  rw [hhandle, VerbOp.deliver_eq _ _ _ hlisted hle, VerbOp.runRemote_eq_onTarget _ _ _ hlisted hle]

theorem fabricVerb_some {r : DeviceRef}
    (htarget : VerbOp.remoteTarget (c.host owner).mrTable e.handle addr op = some r)
    (h : op.onDevice ((c.host owner).memory r) addr.offset = some (d, value)) :
    c.fabricVerb requester addr opaqueId op =
      (c.setDevice owner r d, [(owner, op.accessAt r addr.offset)], .ok value) := by
  rw [fabricVerb_eq opaqueId hcached howner hhandle hlisted hle hfits, htarget]
  simp only [VerbOp.effect, VerbOp.onTarget, h, answered_some h]
  rfl

theorem fabricVerb_none
    (h : ∀ r, VerbOp.remoteTarget (c.host owner).mrTable e.handle addr op = some r →
      op.onDevice ((c.host owner).memory r) addr.offset = none) :
    c.fabricVerb requester addr opaqueId op = (c, [], answered op none) := by
  rw [fabricVerb_eq opaqueId hcached howner hhandle hlisted hle hfits]
  cases htarget : VerbOp.remoteTarget (c.host owner).mrTable e.handle addr op with
  | none => simp [VerbOp.effect, VerbOp.onTarget, setHost]
  | some r => simp [VerbOp.effect, VerbOp.onTarget, setHost, h r htarget]

end

end Cluster

/-! ## The same slot from two nodes -/

/-- A slot of a store at its owner, and another node that knows the store's region. -/
structure SharedSlot (c : Cluster) (owner requester : UInt16) (e : MrEntry) (slots : UInt32)
    (addr : UbAddr) (offsetInMr : UInt64) (slot : UInt32) : Prop where
  region : KvRegion (c.host owner) e slots
  found : (c.host owner).mrTable.lookupByAddr addr = some (e, offsetInMr)
  notOwn : (c.host requester).mrTable.lookupByAddr addr = none
  cached : ∀ part : SlotPart, ∃ entry,
    (c.mrCache requester).lookupByAddr (shift (shift addr (slotOffset slot)) part.offset) =
        some entry ∧ entry.ownerNode = owner ∧ entry.remoteMrHandle = e.handle
  inside : offsetInMr.toNat + (slot.toNat + 1) * kvSlotSize ≤ e.len.toNat

namespace SharedSlot

variable {c : Cluster} {owner requester : UInt16} {e : MrEntry} {slots : UInt32} {addr : UbAddr}
  {offsetInMr : UInt64} {slot : UInt32} (part : SlotPart)

theorem toNat_partOffset : part.offset.toNat ≤ 96 := by
  cases part <;> decide

variable (h : SharedSlot c owner requester e slots addr offsetInMr slot)
include h

/-- A region found by address does not run over the end of the address space. -/
theorem toNat_offset :
    addr.offset.toNat = e.baseOffset.toNat + offsetInMr.toNat ∧
      e.baseOffset.toNat + e.len.toNat < 2 ^ 64 := by
  have hfound := h.found
  rw [MrTable.lookupByAddr, Option.map_eq_some_iff] at hfound
  obtain ⟨entry, hfind, hpair⟩ := hfound
  cases hpair
  have hin := List.find?_some hfind
  simp only [MrTable.addrInRegion, Bool.and_eq_true, decide_eq_true_eq,
    entry.2.offset_baseUbAddr] at hin
  obtain ⟨⟨-, hle⟩, hlt⟩ := hin
  have hlt := UInt64.lt_iff_toNat_lt.mp hlt
  rw [UInt64.toNat_add] at hlt
  have hle' := UInt64.le_iff_toNat_le.mp hle
  have hlen := entry.2.len.toNat_lt
  rw [entry.2.offset_baseUbAddr, UInt64.toNat_sub_of_le _ _ hle]
  omega

theorem offset_eq :
    addr.offset = e.baseOffset + offsetInMr :=
  (VerbOp.baseOffset_add_of_lookupByAddr h.found).symm

theorem toNat_deviceOffset :
    (offsetInMr + slotOffset slot + part.offset).toNat =
      offsetInMr.toNat + slot.toNat * 104 + part.offset.toNat := by
  have hpart := toNat_partOffset part
  have hlen := e.len.toNat_lt
  have hinside := h.inside
  rw [kvSlotSize] at hinside
  rw [UInt64.toNat_add, UInt64.toNat_add, toNat_slotOffset]
  omega

theorem toNat_fabricOffset :
    (shift (shift addr (slotOffset slot)) part.offset).offset.toNat =
      e.baseOffset.toNat + (offsetInMr.toNat + slot.toNat * 104 + part.offset.toNat) := by
  have hpart := toNat_partOffset part
  have hinside := h.inside
  obtain ⟨hoffset, hend⟩ := h.toNat_offset
  rw [kvSlotSize] at hinside
  rw [offset_shift, offset_shift, UInt64.toNat_add, UInt64.toNat_add, toNat_slotOffset]
  omega

theorem le_fabricOffset :
    e.baseOffset ≤ (shift (shift addr (slotOffset slot)) part.offset).offset := by
  rw [UInt64.le_iff_toNat_le, h.toNat_fabricOffset]
  exact Nat.le_add_right _ _

theorem aligned_iff :
    (offsetInMr + slotOffset slot + SlotPart.version.offset) % 8 = 0 ↔ offsetInMr % 8 = 0 := by
  have hversion : SlotPart.version.offset.toNat = 96 := rfl
  have height : (8 : UInt64).toNat = 8 := rfl
  have hzero : (0 : UInt64).toNat = 0 := rfl
  rw [← UInt64.toNat_inj, ← UInt64.toNat_inj, UInt64.toNat_mod, UInt64.toNat_mod,
    h.toNat_deviceOffset, hversion, height, hzero]
  omega

variable {task : KvTask} {part : SlotPart} {op : VerbOp}

theorem onDevice_isSome
    (hnext : task.next = some (part, op)) (halign : task.Atomic → offsetInMr % 8 = 0) :
    ∃ d value, op.onDevice ((c.host owner).memory e.device)
      (offsetInMr + slotOffset slot + part.offset) = some (d, value) := by
  have hsome : (op.onDevice ((c.host owner).memory e.device)
      (offsetInMr + slotOffset slot + part.offset)).isSome = true := by
    rw [VerbOp.onDevice_isSome_iff]
    constructor
    · intro hatomic
      rw [KvTask.next_atomic_part hnext hatomic]
      exact h.aligned_iff.mpr (halign ((KvTask.next_atomic hnext).mp hatomic))
    · obtain ⟨hcount, -⟩ := KvTask.next_inside hnext
      have hinside := h.inside
      have hcapacity := h.region.capacity
      rw [kvSlotSize] at hcount hinside
      rw [h.toNat_deviceOffset]
      omega
  obtain ⟨⟨d, value⟩, hvalue⟩ := Option.isSome_iff_exists.mp hsome
  exact ⟨d, value, hvalue⟩

theorem setDevice {d : Device}
    (hcapacity : d.capacity = ((c.host owner).memory e.device).capacity) :
    SharedSlot (c.setDevice owner e.device d) owner requester e slots addr offsetInMr slot where
  region :=
    { listed := by rw [Cluster.mrTable_setDevice]; exact h.region.listed
      active := by rw [Cluster.mrTable_setDevice]; exact h.region.active
      perms := h.region.perms
      len := h.region.len
      capacity := by
        rw [Cluster.memory_setDevice, Function.update_self, hcapacity]
        exact h.region.capacity }
  found := by rw [Cluster.mrTable_setDevice]; exact h.found
  notOwn := by rw [Cluster.mrTable_setDevice]; exact h.notOwn
  cached := h.cached
  inside := h.inside

theorem locate_owner :
    c.locate owner addr slot = .device e (offsetInMr + slotOffset slot) := by
  rw [Cluster.locate, h.found]

theorem locate_requester :
    c.locate requester addr slot = .fabric (shift addr (slotOffset slot)) := by
  rw [Cluster.locate, h.notOwn]

variable (opaqueId : UInt64)

theorem kvStep_owner (hnext : task.next = some (part, op))
    (halign : task.Atomic → offsetInMr % 8 = 0) :
    ∃ d value, op.onDevice ((c.host owner).memory e.device)
        (offsetInMr + slotOffset slot + part.offset) = some (d, value) ∧
      c.kvStep owner (.device e (offsetInMr + slotOffset slot)) opaqueId task =
        (c.setDevice owner e.device d,
          [(owner, op.accessAt e.device (offsetInMr + slotOffset slot + part.offset))],
          task.resume (.ok value)) := by
  obtain ⟨d, value, hdevice⟩ := h.onDevice_isSome hnext halign
  refine ⟨d, value, hdevice, ?_⟩
  rw [Cluster.kvStep, hnext]
  dsimp only [Cluster.verb]
  rw [Cluster.deviceVerb_some hdevice]

theorem kvStep_not_atomic (hnext : task.next = some (part, op))
    (halign : task.Atomic → offsetInMr % 8 = 0) :
    ¬(c.kvStep owner (.device e (offsetInMr + slotOffset slot)) opaqueId task).2.2.Atomic := by
  obtain ⟨d, value, -, hstep⟩ := h.kvStep_owner opaqueId hnext halign
  rw [hstep]
  exact KvTask.resume_not_atomic task (.ok value)

/-- In a region at the start of its device a step is the same from both nodes. -/
theorem kvStep_agree (hbase : e.baseOffset = 0) (opaqueId : UInt64) (task : KvTask)
    (halign : task.Atomic → offsetInMr % 8 = 0) :
    c.kvStep requester (.fabric (shift addr (slotOffset slot))) opaqueId task =
        c.kvStep owner (.device e (offsetInMr + slotOffset slot)) opaqueId task ∧
      SharedSlot (c.kvStep owner (.device e (offsetInMr + slotOffset slot)) opaqueId task).1
        owner requester e slots addr offsetInMr slot := by
  cases hnext : task.next with
  | none =>
    rw [Cluster.kvStep, Cluster.kvStep, hnext]
    exact ⟨rfl, h⟩
  | some step =>
    obtain ⟨part, op⟩ := step
    obtain ⟨d, value, hdevice, hstep⟩ := h.kvStep_owner opaqueId hnext halign
    have hplace : (shift (shift addr (slotOffset slot)) part.offset).offset =
        offsetInMr + slotOffset slot + part.offset := by
      rw [offset_shift, offset_shift, h.offset_eq, hbase, UInt64.zero_add]
    have haligned : op.IsAtomic →
        (shift (shift addr (slotOffset slot)) part.offset).offset % 8 = 0 := by
      intro hatomic
      rw [hplace, KvTask.next_atomic_part hnext hatomic]
      exact h.aligned_iff.mpr (halign ((KvTask.next_atomic hnext).mp hatomic))
    obtain ⟨entry, hcached, howner, hhandle⟩ := h.cached part
    have hfits := (KvTask.next_inside hnext).2
    have htarget := VerbOp.remoteTarget_admitted h.region.listed haligned
      ⟨hfits, h.region.active, permitted_of_kvPerms h.region.perms op, fun _ => by rw [hbase]; rfl⟩
    rw [hstep]
    refine ⟨?_, h.setDevice (VerbOp.capacity_onDevice hdevice)⟩
    rw [Cluster.kvStep, hnext]
    dsimp only [Cluster.verb]
    rw [← hplace] at hdevice ⊢
    rw [Cluster.fabricVerb_some opaqueId hcached howner hhandle h.region.listed
      (h.le_fabricOffset part) hfits htarget hdevice]

/-- A frame of a step that waits for its response either touches the part of the
slot at its address or ends the request. -/
theorem kvStep_requester (hnext : task.next = some (part, op)) (hwaits : ∀ buf, op ≠ .write buf) :
    (∃ err, c.kvStep requester (.fabric (shift addr (slotOffset slot))) opaqueId task =
      (c, [], task.resume (.error err))) ∨
    ∃ c' r task', c.kvStep requester (.fabric (shift addr (slotOffset slot))) opaqueId task =
      (c', [(owner, op.accessAt r (shift (shift addr (slotOffset slot)) part.offset).offset)],
        task') := by
  obtain ⟨entry, hcached, howner, hhandle⟩ := h.cached part
  have hfits := (KvTask.next_inside hnext).2
  have hle := h.le_fabricOffset part
  rw [Cluster.kvStep, hnext]
  dsimp only [Cluster.verb]
  by_cases hserved : ∃ r d value,
      VerbOp.remoteTarget (c.host owner).mrTable e.handle
        (shift (shift addr (slotOffset slot)) part.offset) op = some r ∧
      op.onDevice ((c.host owner).memory r)
        (shift (shift addr (slotOffset slot)) part.offset).offset = some (d, value)
  · obtain ⟨r, d, value, htarget, hdevice⟩ := hserved
    rw [Cluster.fabricVerb_some opaqueId hcached howner hhandle h.region.listed hle hfits
      htarget hdevice]
    exact Or.inr ⟨_, r, _, rfl⟩
  · have hnone := Cluster.fabricVerb_none opaqueId hcached howner hhandle h.region.listed hle hfits
      (fun r htarget => by
        cases hdevice : op.onDevice ((c.host owner).memory r)
            (shift (shift addr (slotOffset slot)) part.offset).offset with
        | none => rfl
        | some result => exact absurd ⟨r, result.1, result.2, htarget, hdevice⟩ hserved)
    rw [hnone, answered_none hwaits]
    exact Or.inl ⟨.timeout, rfl⟩

theorem remoteTarget_misaligned (hop : op.IsAtomic) (hmis : offsetInMr % 8 ≠ 0) (r : DeviceRef) :
    VerbOp.remoteTarget (c.host owner).mrTable e.handle
      (shift (shift addr (slotOffset slot)) SlotPart.version.offset) op ≠ some r := by
  intro htarget
  rw [VerbOp.remoteTarget, h.region.listed] at htarget
  dsimp only at htarget
  split_ifs at htarget with hunaligned hadmits
  have haddr := not_not.mp fun hne => hunaligned ⟨hop, hne⟩
  have hbase := hadmits.2.2.2 hop
  have hversion : SlotPart.version.offset.toNat = 96 := rfl
  have height : (8 : UInt64).toNat = 8 := rfl
  have hzero : (0 : UInt64).toNat = 0 := rfl
  rw [← UInt64.toNat_inj, UInt64.toNat_mod, h.toNat_fabricOffset, hversion, height, hzero] at haddr
  rw [← UInt64.toNat_inj, UInt64.toNat_mod, height, hzero] at hbase
  apply hmis
  rw [← UInt64.toNat_inj, UInt64.toNat_mod, height, hzero]
  omega

theorem kvStep_misaligned (hatomic : task.Atomic) (hmis : offsetInMr % 8 ≠ 0) :
    (∃ err, c.kvStep owner (.device e (offsetInMr + slotOffset slot)) opaqueId task =
      (c, [], task.resume (.error err))) ∧
    ∃ err, c.kvStep requester (.fabric (shift addr (slotOffset slot))) opaqueId task =
      (c, [], task.resume (.error err)) := by
  obtain ⟨op, hnext, hop, hwaits⟩ := hatomic.next_eq
  constructor
  · have hnone : op.onDevice ((c.host owner).memory e.device)
        (offsetInMr + slotOffset slot + SlotPart.version.offset) = none :=
      VerbOp.onDevice_misaligned hop (fun hzero => hmis (h.aligned_iff.mp hzero)) _
    obtain ⟨err, hverb⟩ := Cluster.deviceVerb_none hnone
    refine ⟨err, ?_⟩
    rw [Cluster.kvStep, hnext]
    dsimp only [Cluster.verb]
    rw [hverb]
  · obtain ⟨entry, hcached, howner, hhandle⟩ := h.cached .version
    have hnone := Cluster.fabricVerb_none opaqueId hcached howner hhandle h.region.listed
      (h.le_fabricOffset .version) (KvTask.next_inside hnext).2
      (fun r htarget => absurd htarget (h.remoteTarget_misaligned hop hmis r))
    refine ⟨.timeout, ?_⟩
    rw [Cluster.kvStep, hnext]
    dsimp only [Cluster.verb]
    rw [hnone, answered_none hwaits]

end SharedSlot

namespace Cluster

variable {c : Cluster} {node : UInt16} {addr : UbAddr} {slot : UInt32} {opaqueId : UInt64}
  {req : KvRequest}

theorem kvCall_failed {err : UbError}
    (hfirst : c.kvStep node (c.locate node addr slot) opaqueId req.start =
      (c, [], req.start.resume (.error err))) :
    (c.kvCall node addr slot opaqueId req).2.1 = [] := by
  have hsecond : c.kvStep node (c.locate node addr slot) opaqueId
      (req.start.resume (.error err)) = (c, [], req.start.resume (.error err)) := by
    rw [kvStep, KvTask.next_resume_error]
  simp only [kvCall, hfirst, hsecond, List.append_nil]

theorem kvCall_touched {c' : Cluster} {touched : UInt16 × Access} {task : KvTask}
    (hfirst : c.kvStep node (c.locate node addr slot) opaqueId req.start = (c', [touched], task)) :
    (c.kvCall node addr slot opaqueId req).2.1.head? = some touched := by
  simp [kvCall, hfirst]

end Cluster

/-- The requests that touch the version before the rest of the slot. -/
def KvRequest.Atomic : KvRequest → Prop
  | put .. | cas .. => True
  | get _ => False

theorem KvRequest.atomic_start (req : KvRequest) : req.start.Atomic ↔ req.Atomic := by
  cases req <;> rfl

namespace SharedSlot

variable {c : Cluster} {owner requester : UInt16} {e : MrEntry} {slots : UInt32} {addr : UbAddr}
  {offsetInMr : UInt64} {slot : UInt32} {req : KvRequest}
  (h : SharedSlot c owner requester e slots addr offsetInMr slot)
include h

/-- A request that touches the same first byte from both nodes is in a region at the
start of its device. -/
theorem baseOffset_eq_zero (opaqueId : UInt64) (halign : req.start.Atomic → offsetInMr % 8 = 0)
    (hsame : (c.kvCall owner addr slot opaqueId req).2.1 =
      (c.kvCall requester addr slot opaqueId req).2.1) : e.baseOffset = 0 := by
  obtain ⟨part, op, hnext, hwaits⟩ := req.start_next
  obtain ⟨d, value, -, hown⟩ := h.kvStep_owner opaqueId hnext halign
  rw [← h.locate_owner] at hown
  have hhead := Cluster.kvCall_touched hown
  rw [hsame] at hhead
  rcases h.kvStep_requester opaqueId hnext hwaits with ⟨err, hfailed⟩ | ⟨c', r, task, hfirst⟩
  · rw [← h.locate_requester] at hfailed
    rw [Cluster.kvCall_failed hfailed] at hhead
    cases hhead
  · rw [← h.locate_requester] at hfirst
    rw [Cluster.kvCall_touched hfirst] at hhead
    -- the two offsets differ by the base of the region
    have hoffset : (shift (shift addr (slotOffset slot)) part.offset).offset.toNat =
        (offsetInMr + slotOffset slot + part.offset).toNat :=
      congrArg (fun x => x.2.offset) (Option.some.inj hhead)
    rw [h.toNat_fabricOffset, h.toNat_deviceOffset] at hoffset
    have hzero : e.baseOffset.toNat = 0 := by omega
    exact UInt64.toNat_inj.mp hzero

theorem kvCall_agree (hbase : e.baseOffset = 0) (opaqueId : UInt64)
    (halign : req.start.Atomic → offsetInMr % 8 = 0) :
    (c.kvCall owner addr slot opaqueId req).2.1 =
      (c.kvCall requester addr slot opaqueId req).2.1 := by
  obtain ⟨part, op, hnext, -⟩ := req.start_next
  obtain ⟨hfirst, hshared⟩ := h.kvStep_agree hbase opaqueId req.start halign
  have hsecond := hshared.kvStep_agree hbase opaqueId
    (c.kvStep owner (.device e (offsetInMr + slotOffset slot)) opaqueId req.start).2.2
    (fun hatomic => absurd hatomic (h.kvStep_not_atomic opaqueId hnext halign))
  rw [Cluster.kvCall, Cluster.kvCall, h.locate_owner, h.locate_requester]
  dsimp only
  rw [hfirst, hsecond.1]

/-- Off the grid of eight bytes a request that starts with the version touches nothing,
from either node. -/
theorem kvCall_misaligned
    (opaqueId : UInt64) (hatomic : req.start.Atomic) (hmis : offsetInMr % 8 ≠ 0) :
    (c.kvCall owner addr slot opaqueId req).2.1 = [] ∧
      (c.kvCall requester addr slot opaqueId req).2.1 = [] := by
  obtain ⟨⟨err, hown⟩, ⟨err', hremote⟩⟩ := h.kvStep_misaligned opaqueId hatomic hmis
  rw [← h.locate_owner] at hown
  rw [← h.locate_requester] at hremote
  exact ⟨Cluster.kvCall_failed hown, Cluster.kvCall_failed hremote⟩

end SharedSlot

/-- The owner of a store and another node touch the same bytes of the same device
with a request just in case the region of the store starts at the first byte of its
device, or the request fails for both because its version is not aligned. -/
theorem kv_paths_agree_iff (c : Cluster) (owner requester : UInt16) (e : MrEntry)
    (slots : UInt32) (addr : UbAddr) (offsetInMr : UInt64) (slot : UInt32)
    (h : SharedSlot c owner requester e slots addr offsetInMr slot) (opaqueId : UInt64)
    (req : KvRequest) :
    (c.kvCall owner addr slot opaqueId req).2.1 = (c.kvCall requester addr slot opaqueId req).2.1 ↔
      e.baseOffset = 0 ∨ (req.Atomic ∧ offsetInMr % 8 ≠ 0) := by
  by_cases hmis : req.Atomic ∧ offsetInMr % 8 ≠ 0
  · obtain ⟨hown, hremote⟩ :=
      h.kvCall_misaligned opaqueId (req.atomic_start.mpr hmis.1) hmis.2
    rw [hown, hremote]
    exact iff_of_true rfl (Or.inr hmis)
  · have halign : req.start.Atomic → offsetInMr % 8 = 0 :=
      fun hatomic => not_not.mp fun hne => hmis ⟨req.atomic_start.mp hatomic, hne⟩
    constructor
    · intro hsame
      exact Or.inl (h.baseOffset_eq_zero opaqueId halign hsame)
    · intro hcase
      exact h.kvCall_agree (hcase.resolve_right hmis) opaqueId halign

/-- Node 1 after setting up a store of one slot, or as it was. -/
def withStore (h : Host) (ref : DeviceRef) : Host :=
  match kvInit h ref "memory" 1 with
  | .ok (h, _) => h
  | .error _ => h

def bareHost (node : UInt16) : Host :=
  ⟨MrTable.new 1 node, fun _ => ⟨.memory, 0, []⟩, JettyTable.new node 16 16⟩

/-- A node with stores, and a node that knows the region of one of them. -/
def twoNodes (stores : Host) (entry : MrCacheEntry) : Cluster where
  host := fun node => if node = 1 then stores else bareHost node
  mrCache := fun _ => MrCacheTable.new.insert entry

def firstStore : MrEntry :=
  ⟨1, 0, 0, 104, kvPerms, UbAddr.new 1 1 0 0 0, UbAddr.offset_origin⟩

theorem kv_paths_agree_first_store :
    let c := twoNodes (withStore (bareHost 1) 0)
      ⟨1, 1, UbAddr.new 1 1 0 0 0, 104, kvPerms, .memory⟩
    (c.kvCall 1 (UbAddr.new 1 1 0 0 0) 0 7 (.put [107] [118])).2.1 =
      (c.kvCall 2 (UbAddr.new 1 1 0 0 0) 0 7 (.put [107] [118])).2.1 := by
  intro c
  have hshared : SharedSlot c 1 2 firstStore 1 (UbAddr.new 1 1 0 0 0) 0 0 :=
    { region :=
        { listed := by decide +kernel
          active := by decide +kernel
          perms := rfl
          len := by decide
          capacity := by decide +kernel }
      found := by decide +kernel
      notOwn := by decide +kernel
      cached := fun part => ⟨⟨1, 1, UbAddr.new 1 1 0 0 0, 104, kvPerms, .memory⟩, by
        cases part <;> decide +kernel, rfl, rfl⟩
      inside := by decide }
  exact (kv_paths_agree_iff c 1 2 firstStore 1 _ 0 0 hshared 7 _).mpr (Or.inl rfl)

/-- The second store of a node starts at offset 104 of the device id, on a device of
104 bytes. Its owner reads the first byte on; the frame of another node asks for
bytes that the device does not have. -/
theorem second_store_read_elsewhere :
    let c := twoNodes (withStore (withStore (bareHost 1) 0) 1)
      ⟨2, 1, UbAddr.new 1 1 0 104 0, 104, kvPerms, .memory⟩
    (c.kvCall 1 (UbAddr.new 1 1 0 104 0) 0 7 (.get [107])).2.1 = [(1, ⟨1, .read, 0, 104⟩)] ∧
      (c.kvCall 2 (UbAddr.new 1 1 0 104 0) 0 7 (.get [107])).2.1 = [] := by
  decide +kernel

end UniBus.Kv
