import UniBus.Core.MemoryRegion

/-!
# Local verbs

The synchronous verbs on regions of the own node. The region is resolved by
address; its state is not consulted.
-/
namespace UniBus

variable (t : MrTable) (mem : Memory)

/-- Resolves an address to a region with the permission for a verb, and to the
offset on its device. -/
def resolveLocal (addr : UbAddr) (verb : Verb) : Except UbError (MrEntry × UInt64) :=
  match t.lookupByAddr addr with
  | none => .error .addrInvalid
  | some (entry, offsetInMr) =>
    match entry.checkPerms verb with
    | .error e => .error e
    | .ok () => .ok (entry, entry.baseOffset + offsetInMr)

def ubReadSync (addr : UbAddr) (len : ℕ) : Except UbError (List UInt8 × Access) :=
  match resolveLocal t addr .readReq with
  | .error e => .error e
  | .ok (entry, deviceOffset) => mem.read entry.device deviceOffset len

def ubWriteSync (addr : UbAddr) (buf : List UInt8) : Except UbError (Memory × Access) :=
  match resolveLocal t addr .write with
  | .error e => .error e
  | .ok (entry, deviceOffset) => mem.write entry.device deviceOffset buf

def ubAtomicCasSync (addr : UbAddr) (expect new : UInt64) :
    Except UbError (UInt64 × Memory × Access) :=
  if addr.offset % 8 ≠ 0 then .error .alignment
  else
    match resolveLocal t addr .atomicCas with
    | .error e => .error e
    | .ok (entry, deviceOffset) => mem.atomicCas entry.device deviceOffset expect new

def ubAtomicFaaSync (addr : UbAddr) (add : UInt64) : Except UbError (UInt64 × Memory × Access) :=
  if addr.offset % 8 ≠ 0 then .error .alignment
  else
    match resolveLocal t addr .atomicFaa with
    | .error e => .error e
    | .ok (entry, deviceOffset) => mem.atomicFaa entry.device deviceOffset add

end UniBus
