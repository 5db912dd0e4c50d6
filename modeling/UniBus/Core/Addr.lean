import UniBus.Core.Types
import UniBus.Foundations.BigEndian

/-!
# 128-bit bus addresses

Layout, from the most significant bit: pod (16), node (16), device (16),
offset (64), reserved (16).
-/
namespace UniBus

structure UbAddr where
  val : BitVec 128
  deriving DecidableEq, Repr

namespace UbAddr

def new (podId nodeId deviceId : UInt16) (offset : UInt64) (reserved : UInt16) : UbAddr :=
  ⟨(podId.toBitVec.setWidth 128 <<< 112) ||| (nodeId.toBitVec.setWidth 128 <<< 96) |||
    (deviceId.toBitVec.setWidth 128 <<< 80) ||| (offset.toBitVec.setWidth 128 <<< 16) |||
    reserved.toBitVec.setWidth 128⟩

variable (a : UbAddr)

def podId : UInt16 := ⟨((a.val >>> 112) &&& 0xFFFF#128).setWidth 16⟩
def nodeId : UInt16 := ⟨((a.val >>> 96) &&& 0xFFFF#128).setWidth 16⟩
def deviceId : UInt16 := ⟨((a.val >>> 80) &&& 0xFFFF#128).setWidth 16⟩
def offset : UInt64 := ⟨((a.val >>> 16) &&& 0xFFFFFFFFFFFFFFFF#128).setWidth 64⟩
def reserved : UInt16 := ⟨(a.val &&& 0xFFFF#128).setWidth 16⟩

def withOffset (newOffset : UInt64) : UbAddr :=
  let mask : BitVec 128 := ~~~(0xFFFFFFFFFFFFFFFF#128 <<< 16)
  ⟨(a.val &&& mask) ||| (newOffset.toBitVec.setWidth 128 <<< 16)⟩

def toBytes : List UInt8 := BigEndian.put 16 a.val.toNat

def fromBytes (bs : List UInt8) : UbAddr := ⟨BitVec.ofNat 128 (BigEndian.get bs)⟩

@[simp] theorem length_toBytes : a.toBytes.length = 16 := BigEndian.length_put _ _

@[simp] theorem fromBytes_toBytes : fromBytes a.toBytes = a := by
  unfold fromBytes toBytes
  rw [BigEndian.get_put, Nat.mod_eq_of_lt (by simpa using a.val.isLt)]
  simp

theorem getElem_mask16 {i : ℕ} (hi : i < 16) : (0xFFFF#16)[i] = true := by
  rw [show (0xFFFF#16) = BitVec.allOnes 16 from rfl, BitVec.getElem_allOnes]

theorem getElem_mask64 {i : ℕ} (hi : i < 64) : (0xFFFFFFFFFFFFFFFF#64)[i] = true := by
  rw [show (0xFFFFFFFFFFFFFFFF#64) = BitVec.allOnes 64 from rfl, BitVec.getElem_allOnes]

theorem getLsbD_field16 (v : BitVec 128) (k : ℕ) {i : ℕ} (hi : i < 16) :
    (((v >>> k) &&& 0xFFFF#128).setWidth 16).getLsbD i = v.getLsbD (k + i) := by
  simp [hi, getElem_mask16 hi]

theorem getLsbD_podId {i : ℕ} (hi : i < 16) :
    a.podId.toBitVec.getLsbD i = a.val.getLsbD (112 + i) := getLsbD_field16 _ _ hi

theorem getLsbD_nodeId {i : ℕ} (hi : i < 16) :
    a.nodeId.toBitVec.getLsbD i = a.val.getLsbD (96 + i) := getLsbD_field16 _ _ hi

theorem getLsbD_deviceId {i : ℕ} (hi : i < 16) :
    a.deviceId.toBitVec.getLsbD i = a.val.getLsbD (80 + i) := getLsbD_field16 _ _ hi

theorem getLsbD_offset {i : ℕ} (hi : i < 64) :
    a.offset.toBitVec.getLsbD i = a.val.getLsbD (16 + i) := by
  simp [offset, hi, getElem_mask64 hi]

theorem getLsbD_reserved {i : ℕ} (hi : i < 16) :
    a.reserved.toBitVec.getLsbD i = a.val.getLsbD i := by
  simp [reserved, hi, getElem_mask16 hi]

section Fields

variable (p n d : UInt16) (o : UInt64) (r : UInt16)

/-- Each bit of an address belongs to one field. -/
theorem getLsbD_new {i : ℕ} (hi : i < 128) :
    (new p n d o r).val.getLsbD i =
      if i < 16 then r.toBitVec.getLsbD i
      else if i < 80 then o.toBitVec.getLsbD (i - 16)
      else if i < 96 then d.toBitVec.getLsbD (i - 80)
      else if i < 112 then n.toBitVec.getLsbD (i - 96)
      else p.toBitVec.getLsbD (i - 112) := by
  -- a field shifted to its place has no bit above it
  have hr : 16 ≤ i → r.toBitVec.getLsbD i = false := BitVec.getLsbD_of_ge _ _
  have ho : 80 ≤ i → o.toBitVec.getLsbD (i - 16) = false := fun h =>
    BitVec.getLsbD_of_ge _ _ (by omega)
  have hd : 96 ≤ i → d.toBitVec.getLsbD (i - 80) = false := fun h =>
    BitVec.getLsbD_of_ge _ _ (by omega)
  have hn : 112 ≤ i → n.toBitVec.getLsbD (i - 96) = false := fun h =>
    BitVec.getLsbD_of_ge _ _ (by omega)
  simp only [new, BitVec.getLsbD_or, BitVec.getLsbD_shiftLeft, BitVec.getLsbD_setWidth, hi]
  grind

@[simp] theorem podId_new : (new p n d o r).podId = p := by
  apply UInt16.toBitVec_inj.mp
  apply BitVec.eq_of_getLsbD_eq
  intro i hi
  rw [getLsbD_podId _ hi, getLsbD_new _ _ _ _ _ (by omega), if_neg (by omega),
    if_neg (by omega), if_neg (by omega), if_neg (by omega), Nat.add_sub_cancel_left]

@[simp] theorem nodeId_new : (new p n d o r).nodeId = n := by
  apply UInt16.toBitVec_inj.mp
  apply BitVec.eq_of_getLsbD_eq
  intro i hi
  rw [getLsbD_nodeId _ hi, getLsbD_new _ _ _ _ _ (by omega), if_neg (by omega),
    if_neg (by omega), if_neg (by omega), if_pos (by omega), Nat.add_sub_cancel_left]

@[simp] theorem deviceId_new : (new p n d o r).deviceId = d := by
  apply UInt16.toBitVec_inj.mp
  apply BitVec.eq_of_getLsbD_eq
  intro i hi
  rw [getLsbD_deviceId _ hi, getLsbD_new _ _ _ _ _ (by omega), if_neg (by omega),
    if_neg (by omega), if_pos (by omega), Nat.add_sub_cancel_left]

@[simp] theorem offset_new : (new p n d o r).offset = o := by
  apply UInt64.toBitVec_inj.mp
  apply BitVec.eq_of_getLsbD_eq
  intro i hi
  rw [getLsbD_offset _ hi, getLsbD_new _ _ _ _ _ (by omega), if_neg (by omega),
    if_pos (by omega), Nat.add_sub_cancel_left]

@[simp] theorem reserved_new : (new p n d o r).reserved = r := by
  apply UInt16.toBitVec_inj.mp
  apply BitVec.eq_of_getLsbD_eq
  intro i hi
  rw [getLsbD_reserved _ hi, getLsbD_new _ _ _ _ _ (by omega), if_pos hi]

end Fields

theorem offset_origin : (new 1 1 0 0 0).offset = 0 := offset_new _ _ _ _ _

theorem getLsbD_new_self (o : UInt64) {i : ℕ} (hi : i < 128) :
    (new a.podId a.nodeId a.deviceId o a.reserved).val.getLsbD i =
      if 16 ≤ i ∧ i < 80 then o.toBitVec.getLsbD (i - 16) else a.val.getLsbD i := by
  rw [getLsbD_new _ _ _ _ _ hi]
  by_cases h₁ : i < 16
  · rw [if_pos h₁, if_neg (by omega), a.getLsbD_reserved h₁]
  by_cases h₂ : i < 80
  · rw [if_neg h₁, if_pos h₂, if_pos (by omega)]
  rw [if_neg h₁, if_neg h₂, if_neg (by omega : ¬(16 ≤ i ∧ i < 80))]
  by_cases h₃ : i < 96
  · rw [if_pos h₃, a.getLsbD_deviceId (by omega), Nat.add_sub_of_le (by omega)]
  by_cases h₄ : i < 112
  · rw [if_neg h₃, if_pos h₄, a.getLsbD_nodeId (by omega), Nat.add_sub_of_le (by omega)]
  · rw [if_neg h₃, if_neg h₄, a.getLsbD_podId (by omega), Nat.add_sub_of_le (by omega)]

theorem new_self : new a.podId a.nodeId a.deviceId a.offset a.reserved = a := by
  apply congrArg UbAddr.mk
  apply BitVec.eq_of_getLsbD_eq
  intro i hi
  refine (a.getLsbD_new_self a.offset hi).trans ?_
  split_ifs with h
  · rw [a.getLsbD_offset (by omega), Nat.add_sub_of_le h.1]
  · rfl

theorem getLsbD_offsetMask {i : ℕ} (hi : i < 128) :
    (~~~(0xFFFFFFFFFFFFFFFF#128 <<< 16)).getLsbD i = !decide (16 ≤ i ∧ i < 80) := by
  have hones : (0xFFFFFFFFFFFFFFFF#128) = (BitVec.allOnes 64).setWidth 128 := rfl
  rw [hones]
  simp only [BitVec.getLsbD_not, BitVec.getLsbD_shiftLeft, BitVec.getLsbD_setWidth,
    BitVec.getLsbD_allOnes, hi]
  grind

theorem withOffset_eq_new (newOffset : UInt64) :
    a.withOffset newOffset = new a.podId a.nodeId a.deviceId newOffset a.reserved := by
  apply congrArg UbAddr.mk
  apply BitVec.eq_of_getLsbD_eq
  intro i hi
  refine Eq.trans ?_ (a.getLsbD_new_self newOffset hi).symm
  rw [BitVec.getLsbD_or, BitVec.getLsbD_and, getLsbD_offsetMask hi, BitVec.getLsbD_shiftLeft,
    BitVec.getLsbD_setWidth]
  by_cases h : 16 ≤ i ∧ i < 80
  · rw [if_pos h, decide_eq_true h]
    simp [hi, h.1, show i - 16 < 128 by omega]
  · have ho : ¬i < 16 → newOffset.toBitVec.getLsbD (i - 16) = false := fun h16 =>
      BitVec.getLsbD_of_ge _ _ (by omega)
    rw [if_neg h, decide_eq_false h]
    by_cases h16 : i < 16
    · simp [h16]
    · simp [ho h16]

end UbAddr
end UniBus
