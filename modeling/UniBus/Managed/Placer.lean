import UniBus.Managed.Region
import UniBus.Managed.Registry
import UniBus.Managed.SubAlloc

/-!
# Placement of regions

The placer picks a device, takes the region from that device's sub-allocator and
records the placement.
-/
namespace UniBus.Managed

structure AllocHints where
  size : UInt64
  latencyClass : LatencyClass
  pin : Option DeviceKind
  deriving DecidableEq, Repr

structure RegionPlacement where
  regionId : RegionId
  homeNodeId : UInt16
  deviceId : UInt16
  mrHandle : UInt32
  baseOffset : UInt64
  len : UInt64
  requesterNodeId : UInt16
  deriving DecidableEq, Repr

structure Placer where
  registry : DeviceRegistry
  regions : AList (fun _ : RegionId => RegionPlacement)
  nextRegionId : UInt64
  subAllocators : AList (fun _ : UInt16 × UInt16 => SubAllocator)

namespace Placer

def new (registry : DeviceRegistry) : Placer := ⟨registry, ∅, 1, ∅⟩

variable (p : Placer)

def registerSubAllocator (nodeId deviceId : UInt16) (allocator : SubAllocator) : Placer :=
  { p with subAllocators := p.subAllocators.insert (nodeId, deviceId) allocator }

/-- The device chosen for a request and its sub-allocator. -/
def target (hints : AllocHints) (requesterNodeId : UInt16) :
    Except String ((UInt16 × UInt16) × SubAllocator) :=
  match p.registry.bestDevice requesterNodeId hints.latencyClass hints.pin hints.size with
  | none => .error "no suitable device found for placement"
  | some key =>
    match p.subAllocators.lookup key with
    | none =>
      .error ("no sub-allocator for device (" ++ toString key.1 ++ ", " ++ toString key.2 ++ ")")
    | some allocator => .ok (key, allocator)

/-- A failed placement changes nothing. -/
def place (hints : AllocHints) (requesterNodeId : UInt16) :
    Except String (Placer × UbVa × RegionPlacement) :=
  match p.target hints requesterNodeId with
  | .error e => .error e
  | .ok (key, allocator) =>
    match allocator.alloc hints.size with
    | none => .error "insufficient space in device pool"
    | some (allocator, baseOffset) =>
      let regionId : RegionId := ⟨p.nextRegionId⟩
      let placement : RegionPlacement :=
        ⟨regionId, key.1, key.2, 0, baseOffset, hints.size, requesterNodeId⟩
      .ok
        ({ registry := p.registry.updateDynamic key.1 key.2 hints.size 0
           regions := p.regions.insert regionId placement
           nextRegionId := p.nextRegionId + 1
           subAllocators := p.subAllocators.insert key allocator },
          UbVa.new regionId 0, placement)

def free (regionId : RegionId) : Option (Placer × RegionPlacement) :=
  match p.regions.lookup regionId with
  | none => none
  | some placement =>
    some
      ({ p with
          regions := p.regions.erase regionId
          subAllocators := Maps.modify p.subAllocators (placement.homeNodeId, placement.deviceId)
            fun a => a.free placement.baseOffset placement.len
          registry := p.registry.updateDynamic placement.homeNodeId placement.deviceId 0 0 },
        placement)

def lookup (regionId : RegionId) : Option RegionPlacement := p.regions.lookup regionId

def setMrHandle (regionId : RegionId) (mrHandle : UInt32) : Placer :=
  { p with regions := Maps.modify p.regions regionId fun r => { r with mrHandle } }

/-! ## Where the regions lie -/

def ranges (regionId : RegionId) : Option (ℕ × ℕ) :=
  (p.regions.lookup regionId).map fun r => (r.baseOffset.toNat, r.len.toNat)

@[simp] theorem subAllocators_setMrHandle (regionId : RegionId) (mrHandle : UInt32) :
    (p.setMrHandle regionId mrHandle).subAllocators = p.subAllocators := rfl

@[simp] theorem ranges_setMrHandle (regionId : RegionId) (mrHandle : UInt32) :
    (p.setMrHandle regionId mrHandle).ranges = p.ranges := by
  funext id
  by_cases hid : id = regionId
  · subst hid
    simp [ranges, setMrHandle, Maps.lookup_modify, Function.comp_def]
  · simp [ranges, setMrHandle, Maps.lookup_modify_ne hid]

variable {hints : AllocHints} {requesterNodeId : UInt16} {p' : Placer} {va : UbVa}
  {placement : RegionPlacement} {key : UInt16 × UInt16} {a : SubAllocator}

theorem place_inv (h : p.place hints requesterNodeId = .ok (p', va, placement)) :
    ∃ key a, p.target hints requesterNodeId = .ok (key, a) ∧
      a.allocated + hints.size ≤ a.totalLen ∧
      placement = ⟨⟨p.nextRegionId⟩, key.1, key.2, 0, a.baseOffset + a.allocated, hints.size,
        requesterNodeId⟩ ∧
      va = UbVa.new placement.regionId 0 ∧
      p' = { registry := p.registry.updateDynamic key.1 key.2 hints.size 0
             regions := p.regions.insert placement.regionId placement
             nextRegionId := p.nextRegionId + 1
             subAllocators :=
               p.subAllocators.insert key { a with allocated := a.allocated + hints.size } } := by
  unfold place at h
  cases htarget : p.target hints requesterNodeId with
  | error e =>
    rw [htarget] at h
    cases h
  | ok chosen =>
    obtain ⟨key, a⟩ := chosen
    rw [htarget] at h
    dsimp only at h
    cases halloc : a.alloc hints.size with
    | none =>
      rw [halloc] at h
      cases h
    | some taken =>
      obtain ⟨a', offset⟩ := taken
      rw [halloc] at h
      cases h
      obtain ⟨hfits, rfl, rfl⟩ := SubAllocator.alloc_eq_some halloc
      exact ⟨key, a, rfl, hfits, rfl, rfl, rfl⟩

theorem place_eq_ok (h : p.place hints requesterNodeId = .ok (p', va, placement)) :
    ∃ key a, p.target hints requesterNodeId = .ok (key, a) ∧
      a.allocated + hints.size ≤ a.totalLen ∧
      p'.subAllocators =
        p.subAllocators.insert key { a with allocated := a.allocated + hints.size } ∧
      p'.ranges ⟨p.nextRegionId⟩ =
        some ((a.baseOffset + a.allocated).toNat, hints.size.toNat) ∧
      ∀ id, id ≠ ⟨p.nextRegionId⟩ → p'.ranges id = p.ranges id := by
  obtain ⟨key, a, htarget, hfits, rfl, -, rfl⟩ := p.place_inv h
  refine ⟨key, a, htarget, hfits, rfl, ?_, ?_⟩
  · simp only [ranges]
    rw [AList.lookup_insert]
    rfl
  · intro id hid
    simp only [ranges]
    rw [AList.lookup_insert_ne hid]

theorem target_eq_ok (h : p.target hints requesterNodeId = .ok (key, a)) :
    p.subAllocators.lookup key = some a := by
  unfold target at h
  split at h
  · cases h
  · split at h
    · cases h
    · rename_i hlookup
      cases h
      exact hlookup

theorem profile_of_target (h : p.target hints requesterNodeId = .ok (key, a)) :
    ∃ profile ∈ p.registry.profiles, profile.deviceKey = key ∧
      hints.size.toNat ≤ profile.capacityBytes.toNat := by
  unfold target at h
  split at h
  · cases h
  · rename_i hbest
    obtain ⟨profile, hmem, hkey, hsuitable⟩ := DeviceRegistry.bestDevice_eq_some hbest
    split at h
    · cases h
    · cases h
      exact ⟨profile, hmem, hkey, DeviceRegistry.size_le_of_suitable hsuitable⟩

theorem free_inv {regionId : RegionId} (h : p.free regionId = some (p', placement)) :
    p.regions.lookup regionId = some placement ∧ p'.regions = p.regions.erase regionId ∧
      p'.nextRegionId = p.nextRegionId ∧
      p'.registry = p.registry.updateDynamic placement.homeNodeId placement.deviceId 0 0 ∧
      ∀ key, p'.subAllocators.lookup key = p.subAllocators.lookup key := by
  unfold free at h
  cases hlookup : p.regions.lookup regionId with
  | none =>
    rw [hlookup] at h
    cases h
  | some found =>
    rw [hlookup] at h
    cases h
    refine ⟨rfl, rfl, rfl, rfl, ?_⟩
    intro key
    by_cases hkey : key = (placement.homeNodeId, placement.deviceId)
    · subst hkey
      simp [Maps.lookup_modify, SubAllocator.free]
    · simp [Maps.lookup_modify_ne hkey]

theorem free_eq_some {regionId : RegionId} {p' : Placer} {placement : RegionPlacement}
    (h : p.free regionId = some (p', placement)) :
    (∀ key, p'.subAllocators.lookup key = p.subAllocators.lookup key) ∧
      ∀ id r, p'.ranges id = some r → p.ranges id = some r := by
  obtain ⟨-, hregions, -, -, hallocators⟩ := p.free_inv h
  refine ⟨hallocators, ?_⟩
  intro id r hr
  simp only [ranges, hregions, Option.map_eq_some_iff] at hr ⊢
  obtain ⟨found, hfound, rfl⟩ := hr
  exact ⟨found, Maps.lookup_erase_of_some hfound, rfl⟩

end Placer
end UniBus.Managed
