import UniBus.Core.Types
import UniBus.Foundations.Maps

/-!
# Regions and the region table

A region is a range of a home node's pool. Every node keeps a table of the
regions it knows, with its own view of their state.
-/
namespace UniBus.Managed

structure RegionId where
  id : UInt64
  deriving DecidableEq, Repr

/-- Global virtual address: the region in the upper half, the offset in the lower. -/
structure UbVa where
  bits : BitVec 128
  deriving DecidableEq, Repr

namespace UbVa

def new (regionId : RegionId) (offset : UInt64) : UbVa :=
  ⟨regionId.id.toBitVec.zeroExtend 128 <<< 64 ||| offset.toBitVec.zeroExtend 128⟩

def regionId (va : UbVa) : RegionId := ⟨⟨(va.bits >>> 64).truncate 64⟩⟩

def offset (va : UbVa) : UInt64 := ⟨va.bits.truncate 64⟩

@[simp] theorem regionId_new (regionId : RegionId) (offset : UInt64) :
    (new regionId offset).regionId = regionId := by
  refine congrArg RegionId.mk (UInt64.eq_of_toBitVec_eq ?_)
  apply BitVec.eq_of_getLsbD_eq
  intro i hi
  simp [new, hi, show 64 + i < 128 by omega, show i < 128 by omega]

@[simp] theorem offset_new (regionId : RegionId) (offset : UInt64) :
    (new regionId offset).offset = offset := by
  refine UInt64.eq_of_toBitVec_eq ?_
  apply BitVec.eq_of_getLsbD_eq
  intro i hi
  simp [new, UbVa.offset, hi]

end UbVa

inductive RegionState
  | home
  | shared (epoch : UInt64)
  | invalid
  deriving DecidableEq, Repr

structure RegionInfo where
  regionId : RegionId
  homeNodeId : UInt16
  deviceId : UInt16
  mrHandle : UInt32
  baseOffset : UInt64
  len : UInt64
  epoch : UInt64
  state : RegionState
  deriving DecidableEq, Repr

structure RegionTable where
  entries : AList (fun _ : RegionId => RegionInfo)

namespace RegionTable

def new : RegionTable := ⟨∅⟩

variable (t : RegionTable)

def insert (info : RegionInfo) : RegionTable := ⟨t.entries.insert info.regionId info⟩

def lookup (regionId : RegionId) : Option RegionInfo := t.entries.lookup regionId

def remove (regionId : RegionId) : RegionTable := ⟨t.entries.erase regionId⟩

def setState (regionId : RegionId) (state : RegionState) : RegionTable :=
  ⟨Maps.modify t.entries regionId fun info => { info with state }⟩

def setEpoch (regionId : RegionId) (epoch : UInt64) : RegionTable :=
  ⟨Maps.modify t.entries regionId fun info => { info with epoch }⟩

@[simp] theorem lookup_insert (info : RegionInfo) :
    (t.insert info).lookup info.regionId = some info := AList.lookup_insert _

theorem lookup_insert_ne {info : RegionInfo} {regionId : RegionId}
    (h : regionId ≠ info.regionId) : (t.insert info).lookup regionId = t.lookup regionId :=
  AList.lookup_insert_ne h

@[simp] theorem lookup_setState (regionId : RegionId) (state : RegionState) :
    (t.setState regionId state).lookup regionId =
      (t.lookup regionId).map fun info => { info with state } :=
  Maps.lookup_modify _ _ _

theorem lookup_setState_ne {regionId other : RegionId} (h : other ≠ regionId)
    (state : RegionState) : (t.setState regionId state).lookup other = t.lookup other :=
  Maps.lookup_modify_ne h _

@[simp] theorem lookup_setEpoch (regionId : RegionId) (epoch : UInt64) :
    (t.setEpoch regionId epoch).lookup regionId =
      (t.lookup regionId).map fun info => { info with epoch } :=
  Maps.lookup_modify _ _ _

theorem lookup_setEpoch_ne {regionId other : RegionId} (h : other ≠ regionId)
    (epoch : UInt64) : (t.setEpoch regionId epoch).lookup other = t.lookup other :=
  Maps.lookup_modify_ne h _

/-- Every known region stays known, at the same place, and does not become Home. -/
def SameRegions (t t' : RegionTable) : Prop :=
  ∀ id info, t.lookup id = some info → ∃ epoch state,
    t'.lookup id = some { info with epoch, state } ∧ (state = .home → info.state = .home)

variable {t}

theorem SameRegions.refl : t.SameRegions t := by
  intro id info h
  exact ⟨info.epoch, info.state, h, fun hhome => hhome⟩

theorem SameRegions.trans {t₁ t₂ t₃ : RegionTable} (h : t₁.SameRegions t₂)
    (k : t₂.SameRegions t₃) : t₁.SameRegions t₃ := by
  intro id info hinfo
  obtain ⟨epoch, state, hsame, hhome⟩ := h id info hinfo
  obtain ⟨epoch', state', hsame', hhome'⟩ := k id _ hsame
  exact ⟨epoch', state', hsame', fun hs => hhome (hhome' hs)⟩

theorem sameRegions_setState {regionId : RegionId} {state : RegionState} (hstate : state ≠ .home) :
    t.SameRegions (t.setState regionId state) := by
  intro id info hinfo
  by_cases hid : id = regionId
  · subst hid
    refine ⟨info.epoch, state, ?_, fun hs => absurd hs hstate⟩
    rw [lookup_setState, hinfo]
    rfl
  · refine ⟨info.epoch, info.state, ?_, fun hs => hs⟩
    rw [lookup_setState_ne t hid]
    exact hinfo

theorem sameRegions_setEpoch {regionId : RegionId} {epoch : UInt64} :
    t.SameRegions (t.setEpoch regionId epoch) := by
  intro id info hinfo
  by_cases hid : id = regionId
  · subst hid
    refine ⟨epoch, info.state, ?_, fun hs => hs⟩
    rw [lookup_setEpoch, hinfo]
    rfl
  · refine ⟨info.epoch, info.state, ?_, fun hs => hs⟩
    rw [lookup_setEpoch_ne t hid]
    exact hinfo

end RegionTable
end UniBus.Managed
