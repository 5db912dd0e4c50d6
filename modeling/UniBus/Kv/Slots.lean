import UniBus.Foundations.Threads
import UniBus.Kv.Paths

/-!
# Concurrent requests on one slot

Any number of requests on one slot, whose steps on the device interleave freely.
A version is assigned in one step and the key and the value follow in another.
While nobody reads or assigns between the two, every key and value that is read
with a version is the one that the version was assigned to.
-/
namespace UniBus.Kv

open DataPlane Wire
open Threads (Pool)
open Runs (Justified)

/-! ## A slot of a device -/

/-- A slot on the grid of eight bytes, inside the device. -/
structure SlotAt (d : Device) (offset : UInt64) : Prop where
  aligned : offset % 8 = 0
  fits : offset.toNat + kvSlotSize ≤ d.capacity
  addressable : offset.toNat + kvSlotSize ≤ 2 ^ 64

def slotVersion (d : Device) (offset : UInt64) : UInt64 := d.word (offset + SlotPart.version.offset)

def slotData (d : Device) (offset : UInt64) : List UInt8 :=
  Bytes.slice d.data offset.toNat kvVersionOffset

def setVersion (d : Device) (offset version : UInt64) : Device :=
  d.setWord (offset + SlotPart.version.offset) version

def setData (d : Device) (offset : UInt64) (data : List UInt8) : Device :=
  { d with data := Bytes.splice d.data offset.toNat data }

namespace SlotAt

variable {d : Device} {offset : UInt64}

theorem toNat_version (h : SlotAt d offset) :
    (offset + SlotPart.version.offset).toNat = offset.toNat + 96 := by
  have hpart : SlotPart.version.offset.toNat = 96 := rfl
  have haddressable := h.addressable
  rw [kvSlotSize] at haddressable
  rw [UInt64.toNat_add, hpart]
  omega

theorem version_fits (h : SlotAt d offset) :
    (offset + SlotPart.version.offset).toNat + 8 ≤ d.capacity := by
  rw [h.toNat_version]
  exact h.fits

theorem version_aligned (h : SlotAt d offset) :
    ¬(offset + SlotPart.version.offset) % 8 ≠ 0 := by
  have haligned := h.aligned
  have height : (8 : UInt64).toNat = 8 := rfl
  have hzero : (0 : UInt64).toNat = 0 := rfl
  rw [← UInt64.toNat_inj, UInt64.toNat_mod, height, hzero] at haligned
  rw [not_not, ← UInt64.toNat_inj, UInt64.toNat_mod, h.toNat_version, height, hzero]
  omega

theorem of_capacity (h : SlotAt d offset) {d' : Device} (hcapacity : d'.capacity = d.capacity) :
    SlotAt d' offset :=
  ⟨h.aligned, hcapacity ▸ h.fits, h.addressable⟩

section Version
variable (h : SlotAt d offset) (version : UInt64)
include h

theorem putLe_fits : (offset + SlotPart.version.offset).toNat +
    (Bytes.putLe 8 version.toNat).length ≤ d.data.length := by
  rw [Bytes.length_putLe]
  exact h.version_fits

theorem setVersion : SlotAt (setVersion d offset version) offset :=
  h.of_capacity (Bytes.length_splice (h.putLe_fits version))

theorem slotVersion_setVersion : slotVersion (Kv.setVersion d offset version) offset = version :=
  Device.word_setWord d h.version_fits version

end Version

section Data
variable (h : SlotAt d offset) {data : List UInt8} (hlen : data.length = 96)
include h hlen

theorem data_fits : offset.toNat + data.length ≤ d.data.length := by
  have hfits : offset.toNat + 104 ≤ d.data.length := h.fits
  omega

theorem setData : SlotAt (setData d offset data) offset :=
  h.of_capacity (Bytes.length_splice (h.data_fits hlen))

theorem slotData_setData : slotData (Kv.setData d offset data) offset = data := by
  have hslice := Bytes.slice_splice (h.data_fits hlen)
  rw [hlen] at hslice
  exact hslice

theorem slotVersion_setData :
    slotVersion (Kv.setData d offset data) offset = slotVersion d offset := by
  have hslice : Bytes.slice (Kv.setData d offset data).data
      (offset + SlotPart.version.offset).toNat 8 =
        Bytes.slice d.data (offset + SlotPart.version.offset).toNat 8 := by
    apply Bytes.slice_splice_outside (h.data_fits hlen)
    rw [h.toNat_version, hlen]
    exact Or.inr le_rfl
  rw [slotVersion, Device.word, hslice]
  rfl

end Data

end SlotAt

/-! ## The turns of a request -/

namespace KvTask

def onSlot (d : Device) (offset : UInt64) (task : KvTask) : Device × KvTask :=
  match task.next with
  | none => (d, task)
  | some (part, op) =>
    match op.tryDevice d (offset + part.offset) with
    | .error err => (d, task.resume (.error err))
    | .ok (d, value) => (d, task.resume (.ok value))

section
variable {d : Device} {offset : UInt64} (h : SlotAt d offset)
include h

theorem onSlot_bump (key value : List UInt8) :
    (bump key value).onSlot d offset =
      (setVersion d offset (slotVersion d offset + 1),
        .storePut (slotVersion d offset + 1) key value) := by
  rw [onSlot, next]
  dsimp only [VerbOp.tryDevice]
  rw [Device.atomicFaa_eq, if_neg h.version_aligned, if_pos h.version_fits]
  rfl

theorem onSlot_swap (key value : List UInt8) (expectVersion : UInt64) :
    (swap key expectVersion value).onSlot d offset =
      if slotVersion d offset = expectVersion then
        (setVersion d offset (expectVersion + 1),
          .storeCas expectVersion (expectVersion + 1) key value)
      else (d, .done (.casFailed (slotVersion d offset) expectVersion)) := by
  rw [onSlot, next]
  dsimp only [VerbOp.tryDevice]
  rw [Device.atomicCas_eq, if_neg h.version_aligned, if_pos h.version_fits]
  by_cases heq : slotVersion d offset = expectVersion
  · have hword : d.word (offset + SlotPart.version.offset) = expectVersion := heq
    simp [Except.map, resume, heq, hword, setVersion]
  · have hword : ¬d.word (offset + SlotPart.version.offset) = expectVersion := heq
    simp only [Except.map, if_neg heq, if_neg hword, resume]
    rfl

theorem onSlot_store {task : KvTask} {key value : List UInt8} {response : KvResponse}
    (hnext : task.next = some (.data, .write (kvData key value)))
    (hresume : task.resume (.ok .done) = .done response) :
    task.onSlot d offset = (setData d offset (kvData key value), .done response) := by
  have hdata : offset + SlotPart.data.offset = offset := UInt64.add_zero offset
  have hfit : offset.toNat + (kvData key value).length ≤ d.capacity :=
    h.data_fits (length_kvData key value)
  rw [onSlot, hnext]
  dsimp only [VerbOp.tryDevice]
  rw [hdata, Device.write_eq, if_pos hfit]
  simp only [Except.map, hresume]
  rfl

theorem onSlot_fetch (key : List UInt8) :
    (fetch key).onSlot d offset =
      (d, .done (readSlot key (Bytes.slice d.data offset.toNat kvSlotSize))) := by
  have hdata : offset + SlotPart.data.offset = offset := UInt64.add_zero offset
  have hlen : (UInt32.ofNat kvSlotSize).toNat = kvSlotSize := rfl
  rw [onSlot, next]
  dsimp only [VerbOp.tryDevice]
  rw [hdata, hlen, Device.read_eq, if_pos h.fits]
  rfl

end

/-- What a request has yet to store. -/
def pending : KvTask → Option (List UInt8 × List UInt8)
  | storePut _ key value | storeCas _ _ key value => some (key, value)
  | _ => none

/-- The next step reads the slot or assigns a version. -/
def Looks (d : Device) (offset : UInt64) : KvTask → Prop
  | bump .. | fetch _ => True
  | swap _ expectVersion _ => slotVersion d offset = expectVersion
  | _ => False

instance (d : Device) (offset : UInt64) : ∀ task : KvTask, Decidable (task.Looks d offset)
  | bump .. | fetch _ => isTrue trivial
  | swap _ expectVersion _ => inferInstanceAs (Decidable (slotVersion d offset = expectVersion))
  | storePut .. | storeCas .. | done _ => isFalse id

end KvTask

/-! ## Slots of a store -/

/-- A new store has no versions. -/
def Blank (d : Device) : Prop := ∀ b ∈ d.data, b = 0

theorem get_eq_zero {bs : List UInt8} (h : ∀ b ∈ bs, b = 0) : BigEndian.get bs = 0 := by
  induction bs with
  | nil => rfl
  | cons b bs ih =>
    rw [BigEndian.get_cons, h b (by simp), ih fun b' hb' => h b' (by simp [hb'])]
    exact Nat.zero_mul _

theorem Blank.slotVersion {d : Device} (h : Blank d) (offset : UInt64) :
    slotVersion d offset = 0 := by
  have hslice : ∀ b ∈ (Bytes.slice d.data (offset + SlotPart.version.offset).toNat 8).reverse,
      b = 0 :=
    fun b hb => h b (List.mem_of_mem_drop (List.mem_of_mem_take (List.mem_reverse.mp hb)))
  rw [Kv.slotVersion, Device.word, Bytes.getLe, get_eq_zero hslice]
  rfl

theorem Blank.tryWrite {d : Device} (h : Blank d) (offset : UInt64) {buf : List UInt8}
    (hbuf : ∀ b ∈ buf, b = 0) : Blank (tryWrite d offset buf) := by
  rw [Kv.tryWrite, Device.write_eq]
  split_ifs
  · intro b hb
    have hb : b ∈ Bytes.splice d.data offset.toNat buf := hb
    rw [Bytes.splice, List.mem_append, List.mem_append] at hb
    rcases hb with (hb | hb) | hb
    · exact h b (List.mem_of_mem_take hb)
    · exact hbuf b hb
    · exact h b (List.mem_of_mem_drop hb)
  · exact h

theorem Blank.clearSlots {d : Device} (h : Blank d) (slots : UInt32) :
    Blank (clearSlots d slots) := by
  unfold Kv.clearSlots
  generalize List.range slots.toNat = is
  induction is generalizing d with
  | nil => exact h
  | cons i is ih =>
    have hversion : ∀ b ∈ Bytes.putLe 8 0, b = 0 := by simp [Bytes.putLe, BigEndian.put]
    exact ih ((h.tryWrite _ hversion).tryWrite _ fun b hb => List.eq_of_mem_replicate hb)

theorem blank_kvDevice (deviceKind : String) (totalLen : UInt64) :
    Blank (kvDevice deviceKind totalLen) := by
  unfold kvDevice
  split_ifs <;> exact fun b hb => List.eq_of_mem_replicate hb

theorem slotVersion_kvInit {h h' : Host} {ref : DeviceRef} {deviceKind : String}
    {slots : UInt32} {addr : UbAddr} {handle : UInt32}
    (hinit : kvInit h ref deviceKind slots = .ok (h', addr, handle)) (offset : UInt64) :
    slotVersion (h'.memory ref) offset = 0 := by
  unfold kvInit at hinit
  dsimp only at hinit
  split at hinit
  · cases hinit
  · cases hinit
    simp only [Function.update_self]
    exact ((blank_kvDevice deviceKind _).clearSlots slots).slotVersion offset

namespace SharedSlot

variable {c : Cluster} {owner requester : UInt16} {e : MrEntry} {slots : UInt32} {addr : UbAddr}
  {offsetInMr : UInt64} {slot : UInt32}

theorem slotAt (h : SharedSlot c owner requester e slots addr offsetInMr slot)
    (haligned : offsetInMr % 8 = 0) :
    SlotAt ((c.host owner).memory e.device) (offsetInMr + slotOffset slot) := by
  have hplace := h.toNat_deviceOffset .data
  have hdata : SlotPart.data.offset = 0 := rfl
  have height : (8 : UInt64).toNat = 8 := rfl
  have hzero : (0 : UInt64).toNat = 0 := rfl
  rw [hdata, UInt64.add_zero, hzero] at hplace
  have hinside := h.inside
  have hcapacity := h.region.capacity
  have hlen := e.len.toNat_lt
  rw [kvSlotSize] at hinside
  rw [← UInt64.toNat_inj, UInt64.toNat_mod, height, hzero] at haligned
  refine ⟨?_, ?_, ?_⟩
  · rw [← UInt64.toNat_inj, UInt64.toNat_mod, hplace, height, hzero]
    omega
  · rw [hplace, kvSlotSize]
    omega
  · rw [hplace, kvSlotSize]
    omega

theorem kvStep_onSlot (c : Cluster) (owner : UInt16) (e : MrEntry) (offset opaqueId : UInt64)
    (task : KvTask) :
    let after := task.onSlot ((c.host owner).memory e.device) offset
    ∃ touched, c.kvStep owner (.device e offset) opaqueId task =
      (c.setDevice owner e.device after.1, touched, after.2) := by
  have hself : c.setDevice owner e.device ((c.host owner).memory e.device) = c := by
    simp [Cluster.setDevice, Cluster.setHost]
  unfold Cluster.kvStep KvTask.onSlot
  cases task.next with
  | none => exact ⟨[], by rw [hself]⟩
  | some step =>
    dsimp only [Cluster.verb, Cluster.deviceVerb]
    cases step.2.tryDevice ((c.host owner).memory e.device) (offset + step.1.offset) with
    | error err => exact ⟨[], by rw [hself]⟩
    | ok result => exact ⟨_, rfl⟩

theorem kvStep_requester_onSlot
    (h : SharedSlot c owner requester e slots addr offsetInMr slot) (hbase : e.baseOffset = 0)
    (haligned : offsetInMr % 8 = 0) (opaqueId : UInt64) (task : KvTask) :
    let after := task.onSlot ((c.host owner).memory e.device) (offsetInMr + slotOffset slot)
    ∃ touched, c.kvStep requester (.fabric (shift addr (slotOffset slot))) opaqueId task =
      (c.setDevice owner e.device after.1, touched, after.2) := by
  rw [(h.kvStep_agree hbase opaqueId task fun _ => haligned).1]
  exact kvStep_onSlot c owner e _ opaqueId task

end SharedSlot

/-! ## Turns of many requests -/

/-- A version assigned to a request, and what a `kv_get` returned. -/
inductive KvEvent
  | assigned (version : UInt64) (key value : List UInt8)
  | got (key value : List UInt8) (version : UInt64)
  deriving DecidableEq, Repr

/-- What is seen of a step, from the request before and after it. -/
def events : KvTask → KvTask → List KvEvent
  | .bump .., .storePut version key value => [.assigned version key value]
  | .swap .., .storeCas _ newVersion key value => [.assigned newVersion key value]
  | .fetch _, .done (.found key value version) => [.got key value version]
  | _, _ => []

/-- A device with a slot, and requests that take turns on it. -/
abbrev SlotPool (n : ℕ) := Pool (Fin n) Device KvTask

def slotStep {n : ℕ} (offset : UInt64) (p : SlotPool n) (i : Fin n) :
    SlotPool n × List KvEvent :=
  p.turn i fun d task =>
    let after := task.onSlot d offset
    (after.1, after.2, events task after.2)

theorem slotStep_eq {n : ℕ} {offset : UInt64} {p : SlotPool n} {i : Fin n} {task task' : KvTask}
    {d : Device}
    (hthread : p.thread i = task) (h : task.onSlot p.shared offset = (d, task')) :
    slotStep offset p i = (⟨d, Function.update p.thread i task'⟩, events task task') := by
  subst hthread
  simp only [slotStep, Pool.turn, h]

/-! ## The last assigned version -/

def KvEvent.assignment : KvEvent → Option (UInt64 × List UInt8 × List UInt8)
  | assigned version key value => some (version, key, value)
  | got .. => none

/-- The request that was assigned a version last. -/
def lastAssigned (log : List KvEvent) : Option (UInt64 × List UInt8 × List UInt8) :=
  (log.filterMap KvEvent.assignment).getLast?

theorem lastAssigned_assigned (log : List KvEvent) (version : UInt64) (key value : List UInt8) :
    lastAssigned (log ++ [.assigned version key value]) = some (version, key, value) := by
  simp [lastAssigned, KvEvent.assignment]

theorem lastAssigned_got (log : List KvEvent) (key value : List UInt8) (version : UInt64) :
    lastAssigned (log ++ [.got key value version]) = lastAssigned log := by
  simp [lastAssigned, KvEvent.assignment]

/-- A key and a value are read with the version of the request that stored them. -/
def Untorn (before : List KvEvent) : KvEvent → Prop
  | .assigned .. => True
  | .got key value version => version > 0 → ∃ k v, lastAssigned before = some (version, k, v) ∧
      key = padString k kvKeyLen ∧ value = padString v kvValueLen

/-! ## The invariant -/

/-- At most one request has data to store, that of the last assigned version; when
there is none, the slot has the data of that version. -/
structure Orderly {n : ℕ} (offset : UInt64) (p : SlotPool n) (log : List KvEvent) : Prop where
  slot : SlotAt p.shared offset
  version : slotVersion p.shared offset = ((lastAssigned log).map Prod.fst).getD 0
  pending : ∀ i key value, (p.thread i).pending = some (key, value) →
    ∃ version, lastAssigned log = some (version, key, value)
  alone : ∀ i j, (p.thread i).pending.isSome → (p.thread j).pending.isSome → i = j
  stored : (∀ i, (p.thread i).pending = none) → ∀ version key value,
    lastAssigned log = some (version, key, value) → slotData p.shared offset = kvData key value

namespace Orderly

variable {n : ℕ} {offset : UInt64} {p : SlotPool n} {log : List KvEvent} {i : Fin n} {task : KvTask}
  {key value : List UInt8}

/-- Nobody else had anything to store when the version is assigned. -/
theorem assign (h : Orderly offset p log) (hquiet : ∀ j, (p.thread j).pending = none)
    (version : UInt64) (htask : task.pending = some (key, value)) :
    Orderly offset ⟨setVersion p.shared offset version, Function.update p.thread i task⟩
      (log ++ [.assigned version key value]) := by
  have hself : ((Function.update p.thread i task) i).pending = some (key, value) := by
    rw [Function.update_self, htask]
  have hother : ∀ j, j ≠ i → ((Function.update p.thread i task) j).pending = none := by
    intro j hj
    rw [Function.update_of_ne hj, hquiet]
  have honly : ∀ j, ((Function.update p.thread i task) j).pending.isSome → j = i := by
    intro j hsome
    by_contra hj
    rw [hother j hj] at hsome
    cases hsome
  exact
    { slot := h.slot.setVersion version
      version := by
        rw [lastAssigned_assigned, h.slot.slotVersion_setVersion]
        rfl
      pending := by
        intro j key' value' hpending
        have hj : j = i := honly j (by rw [hpending]; rfl)
        subst hj
        rw [hself] at hpending
        cases hpending
        exact ⟨version, lastAssigned_assigned log version key value⟩
      alone := fun j k hj hk => (honly j hj).trans (honly k hk).symm
      stored := by
        intro hnone
        have hi := hnone i
        rw [hself] at hi
        cases hi }

theorem store (h : Orderly offset p log) (hpending : (p.thread i).pending = some (key, value))
    (htask : task.pending = none) :
    Orderly offset
      ⟨setData p.shared offset (kvData key value), Function.update p.thread i task⟩ log := by
  have hlen := length_kvData key value
  obtain ⟨version, hlast⟩ := h.pending i key value hpending
  have hquiet : ∀ j, ((Function.update p.thread i task) j).pending = none := by
    intro j
    by_cases hj : j = i
    · subst hj
      rw [Function.update_self, htask]
    · rw [Function.update_of_ne hj, ← Option.not_isSome_iff_eq_none]
      exact fun hsome => hj (h.alone j i hsome (by rw [hpending]; rfl))
  exact
    { slot := h.slot.setData hlen
      version := by rw [h.slot.slotVersion_setData hlen]; exact h.version
      pending := by
        intro j key' value' hj
        rw [hquiet j] at hj
        cases hj
      alone := by
        intro j k hj
        rw [hquiet j] at hj
        cases hj
      stored := by
        intro _ version' key' value' hlast'
        rw [hlast] at hlast'
        cases hlast'
        exact h.slot.slotData_setData hlen }

theorem keep (h : Orderly offset p log) (hthread : (p.thread i).pending = none)
    (htask : task.pending = none) {log' : List KvEvent}
    (hlast : lastAssigned log' = lastAssigned log) :
    Orderly offset ⟨p.shared, Function.update p.thread i task⟩ log' := by
  have hsame : ∀ j, ((Function.update p.thread i task) j).pending = (p.thread j).pending := by
    intro j
    by_cases hj : j = i
    · subst hj
      rw [Function.update_self, htask, hthread]
    · rw [Function.update_of_ne hj]
  exact
    { slot := h.slot
      version := by rw [hlast]; exact h.version
      pending := by
        intro j key' value' hj
        rw [hsame] at hj
        rw [hlast]
        exact h.pending j key' value' hj
      alone := by
        intro j k hj hk
        rw [hsame] at hj hk
        exact h.alone j k hj hk
      stored := by
        intro hnone
        rw [hlast]
        exact h.stored fun j => (hsame j).symm.trans (hnone j) }

end Orderly

/-- Nobody reads the slot or assigns a version while a request has data to store. -/
def Undisturbed {n : ℕ} (offset : UInt64) (p : SlotPool n) (_ : List KvEvent) (i : Fin n) : Prop :=
  (p.thread i).Looks p.shared offset → ∀ j, (p.thread j).pending = none

instance {n : ℕ} (offset : UInt64) (p : SlotPool n) (log : List KvEvent) (i : Fin n) :
    Decidable (Undisturbed offset p log i) :=
  inferInstanceAs (Decidable (_ → _))

theorem readSlot_slot {d : Device} {offset : UInt64} (h : SlotAt d offset) (key : List UInt8) :
    readSlot key (Bytes.slice d.data offset.toNat kvSlotSize) =
      if (slotData d offset).take kvKeyLen ≠ padString key kvKeyLen ∧ slotVersion d offset > 0 then
        .keyMismatch key ((slotData d offset).take kvKeyLen)
      else .found ((slotData d offset).take kvKeyLen)
        (Bytes.slice (slotData d offset) kvKeyLen kvValueLen) (slotVersion d offset) := by
  have hlen : ¬(Bytes.slice d.data offset.toNat kvSlotSize).length < kvSlotSize := by
    rw [Bytes.length_slice h.fits]
    exact lt_irrefl _
  have hkey : (Bytes.slice d.data offset.toNat kvSlotSize).take kvKeyLen =
      (slotData d offset).take kvKeyLen := by
    simp only [slotData, Bytes.slice, List.take_take]
    rfl
  have hvalue : Bytes.slice (Bytes.slice d.data offset.toNat kvSlotSize) kvKeyLen kvValueLen =
      Bytes.slice (slotData d offset) kvKeyLen kvValueLen := by
    rw [slotData, Bytes.slice_slice (by decide), Bytes.slice_slice (by decide)]
  have hversion : Bytes.slice (Bytes.slice d.data offset.toNat kvSlotSize) kvVersionOffset 8 =
      Bytes.slice d.data (offset + SlotPart.version.offset).toNat 8 := by
    rw [Bytes.slice_slice (by decide), h.toNat_version]
    rfl
  rw [readSlot, if_neg hlen, hkey, hvalue, hversion]
  rfl

theorem take_kvData (key value : List UInt8) :
    (kvData key value).take kvKeyLen = padString key kvKeyLen :=
  List.take_left' (length_padString key kvKeyLen)

theorem slice_kvData (key value : List UInt8) :
    Bytes.slice (kvData key value) kvKeyLen kvValueLen = padString value kvValueLen := by
  rw [kvData, Bytes.slice, List.drop_left' (length_padString key kvKeyLen)]
  exact List.take_of_length_le (length_padString value kvValueLen).le

namespace Orderly

variable {n : ℕ} {offset : UInt64} {p : SlotPool n} {log : List KvEvent} {i : Fin n}

theorem untorn (h : Orderly offset p log) (hquiet : ∀ j, (p.thread j).pending = none) :
    Untorn log (.got ((slotData p.shared offset).take kvKeyLen)
      (Bytes.slice (slotData p.shared offset) kvKeyLen kvValueLen)
      (slotVersion p.shared offset)) := by
  intro hpos
  have hversion := h.version
  cases hlast : lastAssigned log with
  | none =>
    rw [hlast] at hversion
    rw [hversion] at hpos
    exact absurd hpos (by decide)
  | some last =>
    obtain ⟨version, key, value⟩ := last
    rw [hlast] at hversion
    have hdata := h.stored hquiet version key value hlast
    rw [hdata, hversion]
    exact ⟨key, value, rfl, take_kvData key value, slice_kvData key value⟩

theorem step (h : Orderly offset p log) (hread : Justified Untorn log)
    (hcond : Undisturbed offset p log i) :
    Orderly offset (slotStep offset p i).1 (log ++ (slotStep offset p i).2) ∧
      Justified Untorn (log ++ (slotStep offset p i).2) := by
  unfold Undisturbed at hcond
  cases hthread : p.thread i with
  | bump key value =>
    rw [hthread] at hcond
    rw [slotStep_eq hthread (KvTask.onSlot_bump h.slot key value)]
    exact ⟨h.assign (hcond trivial) _ rfl, hread.concat trivial⟩
  | swap key expectVersion value =>
    rw [hthread] at hcond
    have hturn := KvTask.onSlot_swap h.slot key value expectVersion
    by_cases hmatch : slotVersion p.shared offset = expectVersion
    · rw [if_pos hmatch] at hturn
      rw [slotStep_eq hthread hturn]
      exact ⟨h.assign (hcond hmatch) _ rfl, hread.concat trivial⟩
    · rw [if_neg hmatch] at hturn
      rw [slotStep_eq hthread hturn]
      have hnone : (p.thread i).pending = none := by rw [hthread]; rfl
      simp only [events, List.append_nil]
      exact ⟨h.keep hnone rfl rfl, hread⟩
  | storePut version key value =>
    rw [slotStep_eq hthread (KvTask.onSlot_store h.slot rfl rfl)]
    have hpending : (p.thread i).pending = some (key, value) := by rw [hthread]; rfl
    simp only [events, List.append_nil]
    exact ⟨h.store hpending rfl, hread⟩
  | storeCas oldVersion newVersion key value =>
    rw [slotStep_eq hthread (KvTask.onSlot_store h.slot rfl rfl)]
    have hpending : (p.thread i).pending = some (key, value) := by rw [hthread]; rfl
    simp only [events, List.append_nil]
    exact ⟨h.store hpending rfl, hread⟩
  | fetch key =>
    rw [hthread] at hcond
    have hnone : (p.thread i).pending = none := by rw [hthread]; rfl
    rw [slotStep_eq hthread (KvTask.onSlot_fetch h.slot key), readSlot_slot h.slot]
    split_ifs
    · simp only [events, List.append_nil]
      exact ⟨h.keep hnone rfl rfl, hread⟩
    · exact ⟨h.keep hnone rfl (lastAssigned_got ..), hread.concat (h.untorn (hcond trivial))⟩
  | done response =>
    have hnone : (p.thread i).pending = none := by rw [hthread]; rfl
    have hturn : (KvTask.done response).onSlot p.shared offset = (p.shared, .done response) := rfl
    rw [slotStep_eq hthread hturn]
    simp only [events, List.append_nil]
    exact ⟨h.keep hnone rfl rfl, hread⟩

end Orderly

def freshPool {n : ℕ} (d : Device) (reqs : Fin n → KvRequest) : SlotPool n :=
  ⟨d, fun i => (reqs i).start⟩

theorem pending_start (req : KvRequest) : req.start.pending = none := by
  cases req <;> rfl

theorem orderly_fresh {d : Device} {offset : UInt64} (hslot : SlotAt d offset)
    (hzero : slotVersion d offset = 0) {n : ℕ} (reqs : Fin n → KvRequest) :
    Orderly offset (freshPool d reqs) [] where
  slot := hslot
  version := hzero
  pending := by
    intro i key value hpending
    have hnone : ((freshPool d reqs).thread i).pending = none := pending_start (reqs i)
    rw [hnone] at hpending
    cases hpending
  alone := by
    intro i j hi
    have hnone : ((freshPool d reqs).thread i).pending = none := pending_start (reqs i)
    rw [hnone] at hi
    cases hi
  stored := by
    intro _ version key value hlast
    cases hlast

/-- Any number of requests on a new slot, in any order of their steps in which no
step reads the slot or assigns a version while another request has data to store:
every `kv_get` that returns a version returns the key and the value of the request
that was assigned the version. -/
theorem slot_never_torn (d : Device) (offset : UInt64) (hslot : SlotAt d offset)
    (hzero : slotVersion d offset = 0) (n : ℕ) (reqs : Fin n → KvRequest) (turns : List (Fin n))
    (hquiet : Runs.Meets (slotStep offset) (Undisturbed offset) (freshPool d reqs) [] turns) :
    Justified Untorn (Runs.run (slotStep offset) (freshPool d reqs) turns).2 := by
  have hrun := Runs.run_invariant
    (I := fun p log => Orderly offset p log ∧ Justified Untorn log)
    (fun p log i h hcond => h.1.step h.2 hcond)
    ⟨orderly_fresh hslot hzero reqs, Runs.justified_nil⟩ hquiet
  rw [List.nil_append] at hrun
  exact hrun.2

def slotDevice : Device := ⟨.memory, 0, List.replicate 104 0⟩

theorem slotAt_slotDevice : SlotAt slotDevice 0 := ⟨by decide, by decide, by decide⟩

/-- Two puts and a get with the same key. -/
def twoPuts : Fin 3 → KvRequest
  | 0 => .put [107] [49]
  | 1 => .put [107] [50]
  | 2 => .get [107]

theorem slot_never_torn_in_turn :
    Justified Untorn (Runs.run (slotStep 0) (freshPool slotDevice twoPuts) [0, 0, 1, 1, 2]).2 := by
  have hquiet : Runs.Meets (slotStep 0) (Undisturbed 0) (freshPool slotDevice twoPuts) []
      [0, 0, 1, 1, 2] := by
    refine ⟨?_, ?_, ?_, ?_, ?_, trivial⟩ <;> decide +kernel
  exact slot_never_torn slotDevice 0 slotAt_slotDevice (by decide +kernel) 3 twoPuts _ hquiet

/-- The get comes between the two steps of the second put: the value of the first
put with the version of the second. -/
theorem value_read_with_later_version :
    (Runs.run (slotStep 0) (freshPool slotDevice twoPuts) [0, 0, 1, 2]).2 =
        [.assigned 1 [107] [49], .assigned 2 [107] [50],
          .got (padString [107] 32) (padString [49] 64) 2] ∧
      ¬Justified Untorn (Runs.run (slotStep 0) (freshPool slotDevice twoPuts) [0, 0, 1, 2]).2 := by
  have hlog : (Runs.run (slotStep 0) (freshPool slotDevice twoPuts) [0, 0, 1, 2]).2 =
      [.assigned 1 [107] [49], .assigned 2 [107] [50],
        .got (padString [107] 32) (padString [49] 64) 2] := by decide +kernel
  refine ⟨hlog, fun hall => ?_⟩
  obtain ⟨k, v, hlast, -, hvalue⟩ := hall [.assigned 1 [107] [49], .assigned 2 [107] [50]]
    (.got (padString [107] 32) (padString [49] 64) 2) [] hlog (by decide)
  cases hlast
  exact absurd hvalue (by decide)

/-! ## What no order of the steps breaks -/

theorem SlotAt.slotData_setVersion {d : Device} {offset : UInt64} (h : SlotAt d offset)
    (version : UInt64) : slotData (Kv.setVersion d offset version) offset = slotData d offset := by
  apply Bytes.slice_splice_outside (h.putLe_fits version)
  rw [h.toNat_version]
  exact Or.inl le_rfl

def assignments (log : List KvEvent) : List (UInt64 × List UInt8 × List UInt8) :=
  log.filterMap KvEvent.assignment

@[simp] theorem assignments_append (log events : List KvEvent) :
    assignments (log ++ events) = assignments log ++ assignments events :=
  List.filterMap_append

/-- The data the slot began with, or those of a request that was assigned a version. -/
def Stored (initial : List UInt8) (log : List KvEvent) (data : List UInt8) : Prop :=
  data = initial ∨ ∃ a ∈ assignments log, data = kvData a.2.1 a.2.2

theorem Stored.append {initial data : List UInt8} {log : List KvEvent}
    (h : Stored initial log data) (events : List KvEvent) : Stored initial (log ++ events) data :=
  h.imp_right fun ⟨a, ha, hdata⟩ => ⟨a, by simp [ha], hdata⟩

/-- The next version is assigned, or the latest one is read with data that were stored
together. -/
def Sequenced (first : UInt64) (initial : List UInt8) (before : List KvEvent) : KvEvent → Prop
  | .assigned version _ _ => version = first + UInt64.ofNat (assignments before).length + 1
  | .got key value version => version = first + UInt64.ofNat (assignments before).length ∧
      ∃ data, Stored initial before data ∧ key = data.take kvKeyLen ∧
        value = Bytes.slice data kvKeyLen kvValueLen

/-- The slot has the latest version, and data that were stored together. -/
structure Counted {n : ℕ} (offset first : UInt64) (initial : List UInt8) (p : SlotPool n)
    (log : List KvEvent) : Prop where
  slot : SlotAt p.shared offset
  version : slotVersion p.shared offset = first + UInt64.ofNat (assignments log).length
  pending : ∀ i key value, (p.thread i).pending = some (key, value) →
    Stored initial log (kvData key value)
  stored : Stored initial log (slotData p.shared offset)
  sequenced : Justified (Sequenced first initial) log

namespace Counted

variable {n : ℕ} {offset first : UInt64} {initial : List UInt8} {p : SlotPool n}
  {log : List KvEvent} {i : Fin n} {task : KvTask} {key value : List UInt8}
  (h : Counted offset first initial p log)
include h

theorem pending_update {events : List KvEvent}
    (htask : ∀ key value, task.pending = some (key, value) →
      Stored initial (log ++ events) (kvData key value)) :
    ∀ j key value, (Function.update p.thread i task j).pending = some (key, value) →
      Stored initial (log ++ events) (kvData key value) :=
  (Function.forall_update_iff p.thread fun _ task => ∀ key value,
    task.pending = some (key, value) → Stored initial (log ++ events) (kvData key value)).mpr
    ⟨htask, fun j _ key value hj => (h.pending j key value hj).append events⟩

theorem assign (htask : task.pending = some (key, value)) :
    let version := slotVersion p.shared offset + 1
    Counted offset first initial
      ⟨setVersion p.shared offset version, Function.update p.thread i task⟩
      (log ++ [.assigned version key value]) := by
  intro version
  have hversion : version = first + UInt64.ofNat (assignments log).length + 1 :=
    congrArg (· + 1) h.version
  exact
    { slot := h.slot.setVersion version
      version := by
        rw [h.slot.slotVersion_setVersion, assignments_append, List.length_append,
          UInt64.ofNat_add, ← UInt64.add_assoc]
        exact hversion
      pending := h.pending_update fun key' value' heq => by
        rw [htask] at heq
        cases heq
        exact Or.inr ⟨(version, key, value), by simp [assignments, KvEvent.assignment], rfl⟩
      stored := by
        rw [h.slot.slotData_setVersion]
        exact h.stored.append _
      sequenced := h.sequenced.concat hversion }

theorem keep (htask : task.pending = none) {d : Device} (hslot : SlotAt d offset)
    (hversion : slotVersion d offset = slotVersion p.shared offset)
    (hstored : Stored initial log (slotData d offset)) {events : List KvEvent}
    (hnone : assignments events = [])
    (hsequenced : Justified (Sequenced first initial) (log ++ events)) :
    Counted offset first initial ⟨d, Function.update p.thread i task⟩ (log ++ events) where
  slot := hslot
  version := by rw [hversion, h.version, assignments_append, hnone, List.append_nil]
  pending := h.pending_update fun key value heq => by
    rw [htask] at heq
    cases heq
  stored := hstored.append events
  sequenced := hsequenced

theorem store (hpending : (p.thread i).pending = some (key, value))
    (htask : task.pending = none) :
    Counted offset first initial
      ⟨setData p.shared offset (kvData key value), Function.update p.thread i task⟩
      (log ++ []) := by
  have hlen := length_kvData key value
  refine h.keep htask (h.slot.setData hlen) (h.slot.slotVersion_setData hlen) ?_ rfl ?_
  · rw [h.slot.slotData_setData hlen]
    exact h.pending i key value hpending
  · rw [List.append_nil]
    exact h.sequenced

theorem step :
    Counted offset first initial (slotStep offset p i).1 (log ++ (slotStep offset p i).2) := by
  have hsame : Justified (Sequenced first initial) (log ++ []) := by
    rw [List.append_nil]
    exact h.sequenced
  cases hthread : p.thread i with
  | bump key value =>
    rw [slotStep_eq hthread (KvTask.onSlot_bump h.slot key value)]
    exact h.assign rfl
  | swap key expectVersion value =>
    have hturn := KvTask.onSlot_swap h.slot key value expectVersion
    split_ifs at hturn with hmatch
    · rw [slotStep_eq hthread hturn, ← hmatch]
      exact h.assign rfl
    · rw [slotStep_eq hthread hturn]
      exact h.keep rfl h.slot rfl h.stored rfl hsame
  | storePut version key value =>
    rw [slotStep_eq hthread (KvTask.onSlot_store h.slot rfl rfl)]
    exact h.store (by rw [hthread]; rfl) rfl
  | storeCas oldVersion newVersion key value =>
    rw [slotStep_eq hthread (KvTask.onSlot_store h.slot rfl rfl)]
    exact h.store (by rw [hthread]; rfl) rfl
  | fetch key =>
    rw [slotStep_eq hthread (KvTask.onSlot_fetch h.slot key), readSlot_slot h.slot]
    split_ifs
    · exact h.keep rfl h.slot rfl h.stored rfl hsame
    · exact h.keep rfl h.slot rfl h.stored rfl
        (h.sequenced.concat ⟨h.version, _, h.stored, rfl, rfl⟩)
  | done response =>
    have hturn : (KvTask.done response).onSlot p.shared offset = (p.shared, .done response) := rfl
    rw [slotStep_eq hthread hturn]
    exact h.keep rfl h.slot rfl h.stored rfl hsame

end Counted

/-- Any number of requests on a slot, in any order of their steps: the assigned versions
count up from the first one without a gap, the slot ends at the last of them, and every
`kv_get` returns the latest version with a key and a value that were stored together. -/
theorem versions_count_up (d : Device) (offset : UInt64) (hslot : SlotAt d offset) (n : ℕ)
    (reqs : Fin n → KvRequest) (turns : List (Fin n)) :
    let run := Runs.run (slotStep offset) (freshPool d reqs) turns
    Justified (Sequenced (slotVersion d offset) (slotData d offset)) run.2 ∧
      slotVersion run.1.shared offset =
        slotVersion d offset + UInt64.ofNat (assignments run.2).length := by
  intro run
  have hinit : Counted offset (slotVersion d offset) (slotData d offset) (freshPool d reqs) [] := by
    refine ⟨hslot, (UInt64.add_zero _).symm, ?_, Or.inl rfl, Runs.justified_nil⟩
    intro i key value hpending
    simp [freshPool, pending_start] at hpending
  have hrun : Counted offset (slotVersion d offset) (slotData d offset) run.1 ([] ++ run.2) :=
    Runs.run_always (fun _ _ _ h => h.step) hinit turns
  exact ⟨hrun.sequenced, hrun.version⟩

/-- The get that finds the value of the first put under the version of the second. -/
theorem versions_count_up_overlapping :
    Justified (Sequenced (slotVersion slotDevice 0) (slotData slotDevice 0))
      (Runs.run (slotStep 0) (freshPool slotDevice twoPuts) [0, 0, 1, 2]).2 :=
  (versions_count_up slotDevice 0 slotAt_slotDevice 3 twoPuts _).1

end UniBus.Kv
