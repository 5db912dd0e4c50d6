import UniBus.Core.Types
import UniBus.Foundations.Bytes

/-!
# Devices

Byte-addressed devices behind the `Device` trait; the memory and the NPU device
have the same operations. Entries of the region table refer to devices, and a
memory maps every reference to the device behind it. An operation that
succeeds also reports the bytes it touched.
-/
namespace UniBus

structure Device where
  kind : DeviceKind
  deviceId : UInt16
  data : List UInt8
  deriving DecidableEq, Repr

namespace Device

variable (d : Device)

def capacity : ℕ := d.data.length

/-- The sum is taken in `ℕ`: a device has fewer than `2^63` bytes, so the
`usize` sum can only wrap when the offset alone is already out of bounds. -/
def checkBounds (capacity offset len : ℕ) : Except UbError Unit :=
  if offset > capacity ∨ offset + len > capacity then .error .addrInvalid else .ok ()

def checkAlignment (offset : UInt64) : Except UbError Unit :=
  if offset % 8 ≠ 0 then .error .alignment else .ok ()

def read (offset : UInt64) (len : ℕ) : Except UbError (List UInt8) := do
  checkBounds d.capacity offset.toNat len
  return Bytes.slice d.data offset.toNat len

def write (offset : UInt64) (buf : List UInt8) : Except UbError Device := do
  checkBounds d.capacity offset.toNat buf.length
  return { d with data := Bytes.splice d.data offset.toNat buf }

/-- The aligned 64-bit word at an offset, in the byte order of the host. -/
def word (offset : UInt64) : UInt64 :=
  UInt64.ofNat (Bytes.getLe (Bytes.slice d.data offset.toNat 8))

def setWord (offset value : UInt64) : Device :=
  { d with data := Bytes.splice d.data offset.toNat (Bytes.putLe 8 value.toNat) }

/-- Compare and swap; the value found is returned in both cases. -/
def atomicCas (offset expect new : UInt64) : Except UbError (UInt64 × Device) := do
  checkAlignment offset
  checkBounds d.capacity offset.toNat 8
  let old := d.word offset
  return (old, if old = expect then d.setWord offset new else d)

def atomicFaa (offset add : UInt64) : Except UbError (UInt64 × Device) := do
  checkAlignment offset
  checkBounds d.capacity offset.toNat 8
  let old := d.word offset
  return (old, d.setWord offset (old + add))

theorem checkBounds_eq (capacity offset len : ℕ) :
    checkBounds capacity offset len =
      if offset + len ≤ capacity then .ok () else .error .addrInvalid := by
  unfold checkBounds
  split_ifs <;> first | rfl | omega

theorem read_eq (offset : UInt64) (len : ℕ) :
    d.read offset len =
      if offset.toNat + len ≤ d.capacity then .ok (Bytes.slice d.data offset.toNat len)
      else .error .addrInvalid := by
  unfold read
  rw [checkBounds_eq]
  split_ifs <;> rfl

theorem write_eq (offset : UInt64) (buf : List UInt8) :
    d.write offset buf =
      if offset.toNat + buf.length ≤ d.capacity then
        .ok { d with data := Bytes.splice d.data offset.toNat buf }
      else .error .addrInvalid := by
  unfold write
  rw [checkBounds_eq]
  split_ifs <;> rfl

theorem atomicCas_eq (offset expect new : UInt64) :
    d.atomicCas offset expect new =
      if offset % 8 ≠ 0 then .error .alignment
      else if offset.toNat + 8 ≤ d.capacity then
        .ok (d.word offset, if d.word offset = expect then d.setWord offset new else d)
      else .error .addrInvalid := by
  unfold atomicCas checkAlignment
  rw [checkBounds_eq]
  by_cases halign : offset % 8 ≠ 0
  · rw [if_pos halign, if_pos halign]
    rfl
  · rw [if_neg halign, if_neg halign]
    by_cases hfit : offset.toNat + 8 ≤ d.capacity
    · rw [if_pos hfit, if_pos hfit]
      rfl
    · rw [if_neg hfit, if_neg hfit]
      rfl

theorem atomicFaa_eq (offset add : UInt64) :
    d.atomicFaa offset add =
      if offset % 8 ≠ 0 then .error .alignment
      else if offset.toNat + 8 ≤ d.capacity then
        .ok (d.word offset, d.setWord offset (d.word offset + add))
      else .error .addrInvalid := by
  unfold atomicFaa checkAlignment
  rw [checkBounds_eq]
  split_ifs <;> rfl

theorem word_setWord {offset : UInt64} (hfit : offset.toNat + 8 ≤ d.capacity) (value : UInt64) :
    (d.setWord offset value).word offset = value := by
  have hlen : (Bytes.putLe 8 value.toNat).length = 8 := Bytes.length_putLe 8 _
  have hroom : offset.toNat + (Bytes.putLe 8 value.toNat).length ≤ d.data.length := by
    rw [hlen]
    exact hfit
  have hslice := Bytes.slice_splice hroom
  rw [hlen] at hslice
  have hlt : value.toNat < 256 ^ 8 := value.toNat_lt
  rw [word, setWord, hslice, Bytes.getLe_putLe, Nat.mod_eq_of_lt hlt, UInt64.ofNat_toNat]

end Device

abbrev DeviceRef := ℕ

abbrev Memory := DeviceRef → Device

inductive AccessKind
  | read
  | write
  | atomicCas
  | atomicFaa
  deriving DecidableEq, Repr

/-- One successful device operation and the bytes it touched. -/
structure Access where
  device : DeviceRef
  kind : AccessKind
  offset : ℕ
  len : ℕ
  deriving DecidableEq, Repr

def Access.range (a : Access) : Set ℕ := Set.Ico a.offset (a.offset + a.len)

namespace Memory

variable (m : Memory) (r : DeviceRef)

def read (offset : UInt64) (len : ℕ) : Except UbError (List UInt8 × Access) :=
  ((m r).read offset len).map fun bytes => (bytes, ⟨r, .read, offset.toNat, len⟩)

def write (offset : UInt64) (buf : List UInt8) : Except UbError (Memory × Access) :=
  ((m r).write offset buf).map fun d =>
    (Function.update m r d, ⟨r, .write, offset.toNat, buf.length⟩)

def atomicCas (offset expect new : UInt64) : Except UbError (UInt64 × Memory × Access) :=
  ((m r).atomicCas offset expect new).map fun (old, d) =>
    (old, Function.update m r d, ⟨r, .atomicCas, offset.toNat, 8⟩)

def atomicFaa (offset add : UInt64) : Except UbError (UInt64 × Memory × Access) :=
  ((m r).atomicFaa offset add).map fun (old, d) =>
    (old, Function.update m r d, ⟨r, .atomicFaa, offset.toNat, 8⟩)

end Memory

end UniBus
