import UniBus.Core.Addr
import UniBus.Core.Device
import Mathlib.Data.List.AList

/-!
# Memory regions

The local region table and the cache of remote regions. What an entry holds
from its registration on is in `MrEntry`; the state and the reference count,
which stay shared with operations in flight, are in the cell of its handle.
-/
namespace UniBus

/-- The fixed part of an entry. Registration derives the bus address of a region
from its base offset, which is the last field. -/
structure MrEntry where
  handle : UInt32
  device : DeviceRef
  baseOffset : UInt64
  len : UInt64
  perms : MrPerms
  baseUbAddr : UbAddr
  offset_baseUbAddr : baseUbAddr.offset = baseOffset
  deriving DecidableEq, Repr

namespace MrEntry

def requiredPerms : Verb → MrPerms
  | .readReq | .readResp => .read
  | .write | .writeImm => .write
  | .atomicCas | .atomicFaa | .atomicCasResp | .atomicFaaResp => .atomic
  | .send => .write

def checkPerms (e : MrEntry) (verb : Verb) : Except UbError Unit :=
  if e.perms.contains (requiredPerms verb) then .ok () else .error .permDenied

def range (e : MrEntry) : Set ℕ :=
  Set.Ico e.baseOffset.toNat (e.baseOffset.toNat + e.len.toNat)

end MrEntry

/-- The mutable part of an entry. -/
structure MrCell where
  state : MrState
  inflightRefs : ℤ
  deriving DecidableEq, Repr

structure MrTable where
  entries : AList (fun _ : UInt32 => MrEntry)
  cells : UInt32 → MrCell
  nextHandle : UInt32
  /-- Next free offset of each device id. -/
  offsetAllocators : AList (fun _ : UInt16 => UInt64)
  podId : UInt16
  nodeId : UInt16

namespace MrTable

def new (podId nodeId : UInt16) : MrTable where
  entries := ∅
  cells := fun _ => ⟨.released, 0⟩
  nextHandle := 1
  offsetAllocators := AList.insert 0 0 ∅
  podId := podId
  nodeId := nodeId

variable (t : MrTable)

/-- Bump allocation of `len` bytes; `next` is the allocator's cursor. -/
def allocOffset (next len align : UInt64) : UInt64 × UInt64 :=
  let aligned := (next + align - 1) &&& ~~~(align - 1)
  (aligned, aligned + len)

def register (mem : Memory) (device : DeviceRef) (len : UInt64) (perms : MrPerms) :
    Except UbError (MrTable × UbAddr × UInt32) :=
  if len = 0 then .error .addrInvalid
  else
    let deviceId := (mem device).deviceId
    let next := (t.offsetAllocators.lookup deviceId).getD 0
    let (offset, next) := allocOffset next len 8
    let handle := t.nextHandle
    let baseUbAddr := UbAddr.new t.podId t.nodeId deviceId offset 0
    let entry : MrEntry :=
      ⟨handle, device, offset, len, perms, baseUbAddr, UbAddr.offset_new _ _ _ _ _⟩
    .ok
      ({ t with
          entries := t.entries.insert handle entry
          cells := Function.update t.cells handle ⟨.active, 0⟩
          nextHandle := handle + 1
          offsetAllocators := t.offsetAllocators.insert deviceId next },
        baseUbAddr, handle)

/-- Revokes a region and removes it from the table. -/
def deregister (handle : UInt32) : Except UbError MrTable :=
  match t.entries.lookup handle with
  | none => .error .addrInvalid
  | some _ =>
    if (t.cells handle).state ≠ .active then
      .error (.internal "MR is already being deregistered or released")
    else
      .ok { t with
        entries := t.entries.erase handle
        cells := Function.update t.cells handle { t.cells handle with state := .revoking } }

def lookup (handle : UInt32) : Option MrEntry := t.entries.lookup handle

def inflightAdd (handle : UInt32) (count : ℤ) : MrTable :=
  { t with
    cells := Function.update t.cells handle
      { t.cells handle with inflightRefs := (t.cells handle).inflightRefs + count } }

/-- Takes an in-flight reference unless the region is being revoked. -/
def tryInflightInc (e : MrEntry) : Option MrTable :=
  if (t.cells e.handle).state ≠ .active then none else some (t.inflightAdd e.handle 1)

def inflightDec (e : MrEntry) : MrTable := t.inflightAdd e.handle (-1)

@[simp] theorem inflightDec_inflightAdd (e : MrEntry) :
    (t.inflightAdd e.handle 1).inflightDec e = t := by
  simp [inflightDec, inflightAdd]

/-- Whether an address falls into a region, as the lookups compute it. -/
def addrInRegion (base : UbAddr) (len : UInt64) (addr : UbAddr) : Bool :=
  base.nodeId == addr.nodeId && base.deviceId == addr.deviceId &&
    decide (base.offset ≤ addr.offset) && decide (addr.offset < base.offset + len)

/-- The first region that holds the address, with the offset inside it. -/
def lookupByAddr (addr : UbAddr) : Option (MrEntry × UInt64) :=
  (t.entries.entries.find? fun e => addrInRegion e.2.baseUbAddr e.2.len addr).map fun e =>
    (e.2, addr.offset - e.2.baseUbAddr.offset)

variable {t} {addr : UbAddr}

theorem lookupByAddr_eq_some {handle : UInt32} {e : MrEntry} (he : t.lookup handle = some e)
    (hin : addrInRegion e.baseUbAddr e.len addr = true)
    (honly : ∀ handle' e', t.lookup handle' = some e' →
      addrInRegion e'.baseUbAddr e'.len addr = true → e' = e) :
    t.lookupByAddr addr = some (e, addr.offset - e.baseOffset) := by
  have hmem : (⟨handle, e⟩ : Sigma fun _ : UInt32 => MrEntry) ∈ t.entries.entries :=
    AList.mem_lookup_iff.mp he
  rw [lookupByAddr]
  cases hfind : t.entries.entries.find? fun e => addrInRegion e.2.baseUbAddr e.2.len addr with
  | none =>
    have hnot := List.find?_eq_none.mp hfind _ hmem
    exact absurd hin hnot
  | some found =>
    obtain ⟨handle', e'⟩ := found
    have he' : t.lookup handle' = some e' :=
      AList.mem_lookup_iff.mpr (List.mem_of_find?_eq_some hfind)
    have hin' : addrInRegion e'.baseUbAddr e'.len addr = true := by
      simpa using List.find?_some hfind
    obtain rfl : e' = e := honly handle' e' he' hin'
    simp [e'.offset_baseUbAddr]

theorem lookupByAddr_eq_none (hnone : ∀ handle e, t.lookup handle = some e →
    addrInRegion e.baseUbAddr e.len addr = false) : t.lookupByAddr addr = none := by
  rw [lookupByAddr, Option.map_eq_none_iff, List.find?_eq_none]
  rintro ⟨handle, e⟩ hmem
  simpa using hnone handle e (AList.mem_lookup_iff.mpr hmem)

end MrTable

/-- Metadata of a region of another node. -/
structure MrCacheEntry where
  remoteMrHandle : UInt32
  ownerNode : UInt16
  baseUbAddr : UbAddr
  len : UInt64
  perms : MrPerms
  deviceKind : DeviceKind
  deriving DecidableEq, Repr

structure MrCacheTable where
  entries : AList (fun _ : UInt16 × UInt32 => MrCacheEntry)

namespace MrCacheTable

def new : MrCacheTable := ⟨∅⟩

def insert (t : MrCacheTable) (entry : MrCacheEntry) : MrCacheTable :=
  ⟨t.entries.insert (entry.ownerNode, entry.remoteMrHandle) entry⟩

def remove (t : MrCacheTable) (ownerNode : UInt16) (mrHandle : UInt32) : MrCacheTable :=
  ⟨t.entries.erase (ownerNode, mrHandle)⟩

def lookupByAddr (t : MrCacheTable) (addr : UbAddr) : Option MrCacheEntry :=
  (t.entries.entries.find? fun e => MrTable.addrInRegion e.2.baseUbAddr e.2.len addr).map
    fun e => e.2

end MrCacheTable
end UniBus
