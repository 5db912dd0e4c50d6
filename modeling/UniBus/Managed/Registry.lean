import Mathlib.Data.List.MinMax
import Mathlib.Data.Rat.Floor
import UniBus.Core.Types
import UniBus.Foundations.Maps

/-!
# The device registry

Profiles of the devices of all nodes and the cost function that places a region.
Scores are rationals where the program computes with floats.
-/
namespace UniBus.Managed

inductive StorageTier
  | hot
  | warm
  | cold
  deriving DecidableEq, Repr

namespace StorageTier

def toU8 : StorageTier → UInt8
  | hot => 0
  | warm => 1
  | cold => 2

def fromU8 (v : UInt8) : Option StorageTier :=
  if v = 0 then some hot
  else if v = 1 then some warm
  else if v = 2 then some cold
  else none

theorem fromU8_toU8 (t : StorageTier) : fromU8 t.toU8 = some t := by
  cases t <;> rfl

end StorageTier

inductive LatencyClass
  | critical
  | normal
  | bulk
  deriving DecidableEq, Repr

namespace LatencyClass

def toU8 : LatencyClass → UInt8
  | critical => 0
  | normal => 1
  | bulk => 2

def fromU8 (v : UInt8) : Option LatencyClass :=
  if v = 0 then some critical
  else if v = 1 then some normal
  else if v = 2 then some bulk
  else none

theorem fromU8_toU8 (c : LatencyClass) : fromU8 c.toU8 = some c := by
  cases c <;> rfl

end LatencyClass

/-- The fields that placement reads. -/
structure DeviceProfile where
  deviceKey : UInt16 × UInt16
  kind : DeviceKind
  tier : StorageTier
  capacityBytes : UInt64
  peakReadBwMbps : UInt32
  readLatencyNsP50 : UInt32
  usedBytes : UInt64
  recentRps : UInt32
  deriving DecidableEq, Repr

namespace DeviceProfile

def freeBytes (p : DeviceProfile) : UInt64 :=
  if p.capacityBytes < p.usedBytes then 0 else p.capacityBytes - p.usedBytes

def freeRatio (p : DeviceProfile) : ℚ :=
  if p.capacityBytes = 0 then 0 else p.freeBytes.toNat / p.capacityBytes.toNat

end DeviceProfile

structure CostWeights where
  latency : ℚ
  capacity : ℚ
  tierMatch : ℚ
  load : ℚ
  deriving DecidableEq, Repr

structure DeviceRegistry where
  profiles : List DeviceProfile
  costWeights : CostWeights
  deriving Repr

/-- No latency on the requester's own node, else the device's plus a network estimate. -/
def latencyEstimate (profile : DeviceProfile) (requesterNode : UInt16) : ℚ :=
  if profile.deviceKey.1 = requesterNode then 0
  else (profile.readLatencyNsP50.toNat + 5000) / 1000

def tierMismatch : LatencyClass → StorageTier → ℚ
  | .critical, .hot => 0
  | .normal, .warm => 0
  | .bulk, .cold => 0
  | .critical, .warm => 3 / 10
  | .normal, .hot => 1 / 10
  | .normal, .cold => 3 / 10
  | .bulk, .warm => 1 / 10
  | .critical, .cold => 1
  | .bulk, .hot => 1 / 2

namespace DeviceRegistry

def new (costWeights : CostWeights) : DeviceRegistry := ⟨[], costWeights⟩

variable (r : DeviceRegistry)

/-- Registers a profile, in place of one with the same key. -/
def register (profile : DeviceProfile) : DeviceRegistry :=
  match r.profiles.findIdx? fun p => p.deviceKey = profile.deviceKey with
  | some i => { r with profiles := r.profiles.set i profile }
  | none => { r with profiles := r.profiles ++ [profile] }

def get (nodeId deviceId : UInt16) : Option DeviceProfile :=
  r.profiles.find? fun p => p.deviceKey = (nodeId, deviceId)

/-- Sets, not adds to, the dynamic fields of a device. -/
def updateDynamic (nodeId deviceId : UInt16) (usedBytes : UInt64) (recentRps : UInt32) :
    DeviceRegistry :=
  match r.profiles.findIdx? fun p => p.deviceKey = (nodeId, deviceId) with
  | some i =>
    { r with profiles := r.profiles.modify i fun p => { p with usedBytes, recentRps } }
  | none => r

def removeNode (nodeId : UInt16) : DeviceRegistry :=
  { r with profiles := r.profiles.filter fun p => p.deviceKey.1 ≠ nodeId }

def score (requesterNode : UInt16) (latencyClass : LatencyClass) (p : DeviceProfile) : ℚ :=
  r.costWeights.latency * latencyEstimate p requesterNode +
    r.costWeights.capacity * (1 - p.freeRatio) +
    r.costWeights.tierMatch * tierMismatch latencyClass p.tier +
    r.costWeights.load * (p.recentRps.toNat / max p.peakReadBwMbps.toNat 1)

/-- The filters of the selection: enough free space, and the pinned kind if any. -/
def suitable (pin : Option DeviceKind) (size : UInt64) (p : DeviceProfile) : Bool :=
  decide (size ≤ p.freeBytes) && pin.all fun kind => decide (p.kind = kind)

/-- One round of the selection loop: a later device wins only with a lower score. -/
def consider (requesterNode : UInt16) (latencyClass : LatencyClass) (pin : Option DeviceKind)
    (size : UInt64) (best : Option ((UInt16 × UInt16) × ℚ)) (p : DeviceProfile) :
    Option ((UInt16 × UInt16) × ℚ) :=
  if suitable pin size p then
    let score := r.score requesterNode latencyClass p
    match best with
    | none => some (p.deviceKey, score)
    | some (_, bestScore) => if score < bestScore then some (p.deviceKey, score) else best
  else best

def bestDevice (requesterNode : UInt16) (latencyClass : LatencyClass) (pin : Option DeviceKind)
    (size : UInt64) : Option (UInt16 × UInt16) :=
  (r.profiles.foldl (r.consider requesterNode latencyClass pin size) none).map fun best => best.1

/-! ## What the selection and the updates give -/

variable {r}

section
variable {requesterNode : UInt16} {latencyClass : LatencyClass} {pin : Option DeviceKind}
  {size : UInt64} {key : UInt16 × UInt16}

theorem consider_map (best : Option DeviceProfile) {p : DeviceProfile}
    (h : suitable pin size p = true) :
    r.consider requesterNode latencyClass pin size
        (best.map fun q => (q.deviceKey, r.score requesterNode latencyClass q)) p =
      (List.argAux (fun q q' => r.score requesterNode latencyClass q <
        r.score requesterNode latencyClass q') best p).map
        fun q => (q.deviceKey, r.score requesterNode latencyClass q) := by
  rw [consider, if_pos h]
  cases best with
  | none => rfl
  | some q =>
    dsimp only [Option.map_some, List.argAux]
    split_ifs <;> rfl

theorem foldl_consider (profiles : List DeviceProfile) (best : Option DeviceProfile) :
    profiles.foldl (r.consider requesterNode latencyClass pin size)
        (best.map fun q => (q.deviceKey, r.score requesterNode latencyClass q)) =
      ((profiles.filter (suitable pin size)).foldl
        (List.argAux fun q q' => r.score requesterNode latencyClass q <
          r.score requesterNode latencyClass q') best).map
        fun q => (q.deviceKey, r.score requesterNode latencyClass q) := by
  induction profiles generalizing best with
  | nil => rfl
  | cons p profiles ih =>
    by_cases h : suitable pin size p = true
    · rw [List.filter_cons_of_pos h, List.foldl_cons, List.foldl_cons, consider_map best h, ih]
    · rw [List.filter_cons_of_neg h, List.foldl_cons, consider, if_neg h, ih]

/-- The loop finds the first device with the least score among the suitable ones. -/
theorem bestDevice_eq_argmin :
    r.bestDevice requesterNode latencyClass pin size =
      ((r.profiles.filter (suitable pin size)).argmin
        (r.score requesterNode latencyClass)).map DeviceProfile.deviceKey := by
  refine (congrArg (Option.map Prod.fst) (foldl_consider r.profiles none)).trans ?_
  rw [Option.map_map]
  rfl

theorem bestDevice_eq_some (h : r.bestDevice requesterNode latencyClass pin size = some key) :
    ∃ p ∈ r.profiles, p.deviceKey = key ∧ suitable pin size p = true := by
  rw [bestDevice_eq_argmin] at h
  obtain ⟨p, hp, hkey⟩ := Option.map_eq_some_iff.mp h
  obtain ⟨hmem, hsuitable⟩ := List.mem_filter.mp (List.argmin_mem hp)
  exact ⟨p, hmem, hkey, hsuitable⟩

end

theorem size_le_of_suitable {pin : Option DeviceKind} {size : UInt64} {p : DeviceProfile}
    (h : suitable pin size p = true) : size.toNat ≤ p.capacityBytes.toNat := by
  rw [suitable, Bool.and_eq_true, decide_eq_true_eq, UInt64.le_iff_toNat_le] at h
  have hfree : p.freeBytes.toNat ≤ p.capacityBytes.toNat := by
    unfold DeviceProfile.freeBytes
    split_ifs with hused
    · exact Nat.zero_le _
    · rw [UInt64.toNat_sub_of_le _ _ (UInt64.not_lt.mp hused)]
      exact Nat.sub_le _ _
  exact h.1.trans hfree

section
variable {nodeId deviceId : UInt16} {usedBytes : UInt64} {recentRps : UInt32}

theorem profiles_updateDynamic :
    (r.updateDynamic nodeId deviceId usedBytes recentRps).profiles =
      r.profiles.modify (r.profiles.findIdx fun p => p.deviceKey = (nodeId, deviceId))
        fun p => { p with usedBytes, recentRps } := by
  unfold updateDynamic
  cases hfind : r.profiles.findIdx? fun p => p.deviceKey = (nodeId, deviceId) with
  | none =>
    rw [List.findIdx?_eq_none_iff_findIdx_eq] at hfind
    rw [hfind, List.modify_eq_self (le_refl _)]
  | some i =>
    rw [(List.findIdx?_eq_some_iff_findIdx_eq.mp hfind).2]

theorem get_updateDynamic (nodeId' deviceId' : UInt16) :
    (r.updateDynamic nodeId deviceId usedBytes recentRps).get nodeId' deviceId' =
      if (nodeId', deviceId') = (nodeId, deviceId) then
        (r.get nodeId deviceId).map fun p => { p with usedBytes, recentRps }
      else r.get nodeId' deviceId' := by
  rw [get, profiles_updateDynamic]
  apply Maps.find?_modify_findIdx
  intro p hkey
  exact hkey

theorem capacity_updateDynamic {p : DeviceProfile}
    (hp : p ∈ (r.updateDynamic nodeId deviceId usedBytes recentRps).profiles) :
    ∃ q ∈ r.profiles, q.deviceKey = p.deviceKey ∧ q.capacityBytes = p.capacityBytes := by
  rw [profiles_updateDynamic] at hp
  obtain ⟨i, hi⟩ := List.mem_iff_getElem?.mp hp
  rw [List.getElem?_modify, Option.map_eq_map, Option.map_eq_some_iff] at hi
  obtain ⟨q, hq, rfl⟩ := hi
  refine ⟨q, List.mem_of_getElem? hq, ?_⟩
  split_ifs <;> exact ⟨rfl, rfl⟩

end

end DeviceRegistry
end UniBus.Managed
