import UniBus.Managed.Placements

/-!
# What the registry records as used

The selection of a device reads its `used_bytes`. A placement sets them to its own
size and a release sets them to zero, so the record is the sum over the live
placements only while no other live placement has bytes on the device.
-/
namespace UniBus.Managed
namespace Placer

/-- The bytes that a placement takes on a device. -/
def bytesOn (key : UInt16 × UInt16) (r : RegionPlacement) : ℕ :=
  if r.deviceKey = key then r.len.toNat else 0

variable (p : Placer)

/-- The sum over the live placements on a device. -/
def liveBytes (key : UInt16 × UInt16) : ℕ := Maps.total (bytesOn key) p.regions

/-- The same without the placement of one region. -/
def liveBesides (regionId : RegionId) (key : UInt16 × UInt16) : ℕ :=
  Maps.total (bytesOn key) (p.regions.erase regionId)

/-- The registry records the live bytes of every device. -/
def Accurate : Prop :=
  ∀ nodeId deviceId profile, p.registry.get nodeId deviceId = some profile →
    profile.usedBytes.toNat = p.liveBytes (nodeId, deviceId)

/-- A call that succeeds leaves no bytes on its device but its own; the id of a new
placement is not that of one with bytes elsewhere. -/
def Sole : PlacerCall → Prop
  | .place hints requesterNodeId => ∀ p' va placement,
      p.place hints requesterNodeId = .ok (p', va, placement) →
        p.liveBesides placement.regionId placement.deviceKey = 0 ∧
        ∀ nodeId deviceId profile, p.registry.get nodeId deviceId = some profile →
          (nodeId, deviceId) ≠ placement.deviceKey →
            p.liveBesides placement.regionId (nodeId, deviceId) = p.liveBytes (nodeId, deviceId)
  | .free regionId => ∀ p' placement, p.free regionId = some (p', placement) →
      p.liveBesides regionId placement.deviceKey = 0
  | .setMrHandle .. => True

/-- Every live placement is on a registered device. -/
def Known : Prop :=
  ∀ id r, p.regions.lookup id = some r →
    (p.registry.get r.homeNodeId r.deviceId).isSome = true

/-! ## One call -/

variable {p} {p' : Placer}

theorem bytesOn_self (r : RegionPlacement) : bytesOn r.deviceKey r = r.len.toNat := if_pos rfl

theorem bytesOn_ne {r : RegionPlacement} {key : UInt16 × UInt16} (h : key ≠ r.deviceKey) :
    bytesOn key r = 0 := if_neg (Ne.symm h)

theorem isSome_get_updateDynamic (r : DeviceRegistry) (nodeId deviceId : UInt16)
    (usedBytes : UInt64) (recentRps : UInt32) (nodeId' deviceId' : UInt16) :
    ((r.updateDynamic nodeId deviceId usedBytes recentRps).get nodeId' deviceId').isSome =
      (r.get nodeId' deviceId').isSome := by
  rw [DeviceRegistry.get_updateDynamic]
  split_ifs with hkey
  · cases hkey
    rw [Option.isSome_map]
  · rfl

/-- After an update of one device, the records are right just in case that device's is:
those of the others are compared with the live bytes as they were. -/
theorem accurate_update_iff {nodeId deviceId : UInt16} {usedBytes : UInt64}
    {recentRps : UInt32} (haccurate : p.Accurate)
    (hknown : (p.registry.get nodeId deviceId).isSome = true)
    (hregistry : p'.registry = p.registry.updateDynamic nodeId deviceId usedBytes recentRps) :
    p'.Accurate ↔
      usedBytes.toNat = p'.liveBytes (nodeId, deviceId) ∧
      ∀ nodeId' deviceId' profile, p.registry.get nodeId' deviceId' = some profile →
        (nodeId', deviceId') ≠ (nodeId, deviceId) →
          p'.liveBytes (nodeId', deviceId') = p.liveBytes (nodeId', deviceId') := by
  have hget : ∀ nodeId' deviceId', p'.registry.get nodeId' deviceId' = _ := fun nodeId' deviceId' =>
    hregistry ▸ DeviceRegistry.get_updateDynamic nodeId' deviceId'
  constructor
  · intro h
    constructor
    · obtain ⟨profile, hprofile⟩ := Option.isSome_iff_exists.mp hknown
      have hused := h nodeId deviceId { profile with usedBytes, recentRps }
      rw [hget, if_pos rfl, hprofile] at hused
      exact hused rfl
    · intro nodeId' deviceId' profile hprofile hne
      have hused := h nodeId' deviceId' profile
      rw [hget, if_neg hne] at hused
      rw [← hused hprofile]
      exact haccurate nodeId' deviceId' profile hprofile
  · rintro ⟨hself, hothers⟩ nodeId' deviceId' profile hprofile
    rw [hget] at hprofile
    split_ifs at hprofile with hkey
    · obtain ⟨old, -, rfl⟩ := Option.map_eq_some_iff.mp hprofile
      rw [hkey]
      exact hself
    · rw [hothers nodeId' deviceId' profile hprofile hkey]
      exact haccurate nodeId' deviceId' profile hprofile

section Place
variable {hints : AllocHints} {requesterNodeId : UInt16} {va : UbVa}
  {placement : RegionPlacement}

theorem known_target (hplace : p.place hints requesterNodeId = .ok (p', va, placement)) :
    (p.registry.get placement.homeNodeId placement.deviceId).isSome = true := by
  obtain ⟨key, a, htarget, -, rfl, -, -⟩ := p.place_inv hplace
  obtain ⟨profile, hmem, hkey, -⟩ := p.profile_of_target htarget
  rw [DeviceRegistry.get, List.find?_isSome]
  exact ⟨profile, hmem, by simp [hkey]⟩

/-- A placement comes on top of all that is live under another id. -/
theorem liveBytes_place (hplace : p.place hints requesterNodeId = .ok (p', va, placement))
    (key : UInt16 × UInt16) :
    p'.liveBytes key = bytesOn key placement + p.liveBesides placement.regionId key := by
  obtain ⟨-, -, -, -, -, -, rfl⟩ := p.place_inv hplace
  exact Maps.total_insert _ _ _ _

theorem accurate_place_iff (haccurate : p.Accurate)
    (hplace : p.place hints requesterNodeId = .ok (p', va, placement)) :
    p'.Accurate ↔
      p.liveBesides placement.regionId placement.deviceKey = 0 ∧
      ∀ nodeId deviceId profile, p.registry.get nodeId deviceId = some profile →
        (nodeId, deviceId) ≠ placement.deviceKey →
          p.liveBesides placement.regionId (nodeId, deviceId) =
            p.liveBytes (nodeId, deviceId) := by
  have hlive := liveBytes_place hplace
  have hregistry : p'.registry = p.registry.updateDynamic placement.homeNodeId
      placement.deviceId placement.len 0 := by
    obtain ⟨key, a, -, -, rfl, -, rfl⟩ := p.place_inv hplace
    rfl
  rw [accurate_update_iff haccurate (known_target hplace) hregistry]
  apply and_congr
  · rw [hlive]
    have hself : bytesOn (placement.homeNodeId, placement.deviceId) placement =
        placement.len.toNat := bytesOn_self placement
    rw [hself]
    exact Nat.left_eq_add
  · apply forall_congr'
    intro nodeId
    apply forall_congr'
    intro deviceId
    apply forall_congr'
    intro profile
    apply imp_congr_right
    intro _
    apply imp_congr_right
    intro hne
    rw [hlive, bytesOn_ne hne, Nat.zero_add]

end Place

section Free
variable {regionId : RegionId} {placement : RegionPlacement}

theorem accurate_free_iff (haccurate : p.Accurate) (hknown : p.Known)
    (hfree : p.free regionId = some (p', placement)) :
    p'.Accurate ↔ p.liveBesides regionId placement.deviceKey = 0 := by
  obtain ⟨hlookup, hregions, -, hregistry, -⟩ := p.free_inv hfree
  have hlive : ∀ key, p'.liveBytes key = p.liveBesides regionId key := by
    intro key
    rw [liveBytes, hregions, liveBesides]
  rw [accurate_update_iff haccurate (hknown regionId placement hlookup) hregistry, hlive]
  constructor
  · intro h
    exact h.1.symm
  · intro hzero
    refine ⟨hzero.symm, ?_⟩
    intro nodeId deviceId profile _ hne
    have htotal : p.liveBytes (nodeId, deviceId) =
        bytesOn (nodeId, deviceId) placement + p.liveBesides regionId (nodeId, deviceId) :=
      Maps.total_erase hlookup
    rw [hlive, htotal, bytesOn_ne hne, Nat.zero_add]

end Free

theorem liveBytes_setMrHandle (regionId : RegionId) (mrHandle : UInt32)
    (key : UInt16 × UInt16) :
    (p.setMrHandle regionId mrHandle).liveBytes key = p.liveBytes key := by
  apply Maps.total_modify
  intro r
  rfl

theorem accurate_step_iff (haccurate : p.Accurate) (hknown : p.Known) (call : PlacerCall) :
    (p.step call).1.Accurate ↔ p.Sole call := by
  cases call with
  | place hints requesterNodeId =>
    simp only [step, Sole]
    cases hplace : p.place hints requesterNodeId with
    | error e => exact iff_of_true haccurate (fun _ _ _ h => by cases h)
    | ok placed =>
      obtain ⟨p', va, placement⟩ := placed
      rw [accurate_place_iff haccurate hplace]
      constructor
      · rintro h _ _ _ ⟨rfl, rfl, rfl⟩
        exact h
      · intro h
        exact h p' va placement rfl
  | free regionId =>
    simp only [step, Sole]
    cases hfree : p.free regionId with
    | none => exact iff_of_true haccurate (fun _ _ h => by cases h)
    | some freed =>
      obtain ⟨p', placement⟩ := freed
      rw [accurate_free_iff haccurate hknown hfree]
      constructor
      · rintro h _ _ ⟨rfl, rfl⟩
        exact h
      · intro h
        exact h p' placement rfl
  | setMrHandle regionId mrHandle =>
    apply iff_of_true _ trivial
    intro nodeId deviceId profile hprofile
    rw [step, liveBytes_setMrHandle]
    exact haccurate nodeId deviceId profile hprofile

theorem Known.step (h : p.Known) (call : PlacerCall) : (p.step call).1.Known := by
  cases call with
  | place hints requesterNodeId =>
    simp only [Placer.step]
    cases hplace : p.place hints requesterNodeId with
    | error e => exact h
    | ok placed =>
      obtain ⟨p', va, placement⟩ := placed
      have hself := known_target hplace
      obtain ⟨key, a, -, -, -, -, rfl⟩ := p.place_inv hplace
      intro id r hr
      rw [isSome_get_updateDynamic]
      by_cases hid : id = placement.regionId
      · rw [hid, AList.lookup_insert] at hr
        cases hr
        exact hself
      · rw [AList.lookup_insert_ne hid] at hr
        exact h id r hr
  | free regionId =>
    simp only [Placer.step]
    cases hfree : p.free regionId with
    | none => exact h
    | some freed =>
      obtain ⟨p', placement⟩ := freed
      obtain ⟨-, hregions, -, hregistry, -⟩ := p.free_inv hfree
      intro id r hr
      rw [hregions] at hr
      rw [hregistry, isSome_get_updateDynamic]
      exact h id r (Maps.lookup_erase_of_some hr)
  | setMrHandle regionId mrHandle =>
    intro id r hr
    obtain ⟨old, hold, rfl⟩ := Maps.lookup_modify_eq_some hr
    split_ifs <;> exact h id old hold

/-! ## Whole runs -/

/-- The records are right after every call just in case every successful call finds no
other live bytes on its device. -/
theorem usage_accurate_iff (registry : DeviceRegistry)
    (pools : List ((UInt16 × UInt16) × UInt64 × UInt64))
    (hunused : ∀ profile ∈ registry.profiles, profile.usedBytes = 0) (calls : List PlacerCall) :
    Runs.Meets step (fun p _ call => (p.step call).1.Accurate) (start registry pools) [] calls ↔
      Runs.Meets step (fun p _ call => p.Sole call) (start registry pools) [] calls := by
  obtain ⟨hregistry, hregions, -, -⟩ := start_inv registry pools
  have hinit : (start registry pools).Accurate ∧ (start registry pools).Known := by
    constructor
    · intro nodeId deviceId profile hprofile
      rw [hregistry] at hprofile
      rw [hunused profile (List.mem_of_find?_eq_some hprofile), liveBytes, hregions]
      rfl
    · intro id r hr
      rw [hregions, AList.lookup_empty] at hr
      cases hr
  exact Runs.meets_iff (I := fun (p : Placer) _ => p.Accurate ∧ p.Known)
    (fun p _ call h => accurate_step_iff h.1 h.2 call)
    (fun p _ call h haccurate => ⟨haccurate, h.2.step call⟩) hinit calls

theorem usage_accurate_iff_released :
    let registry : DeviceRegistry := ⟨[⟨(1, 0), .memory, .warm, 64, 100, 0, 0, 0⟩], ⟨1, 1, 1, 1⟩⟩
    let calls : List PlacerCall :=
      [.place ⟨16, .normal, none⟩ 1, .free ⟨1⟩, .place ⟨8, .normal, none⟩ 1]
    (∀ profile ∈ registry.profiles, profile.usedBytes = 0) ∧
      Runs.Meets step (fun p _ call => (p.step call).1.Accurate)
        (start registry [((1, 0), 0, 64)]) [] calls := by
  intro registry calls
  refine ⟨by decide, ?_⟩
  apply (usage_accurate_iff registry [((1, 0), 0, 64)] (by decide) calls).mpr
  refine ⟨?_, ?_, ?_, trivial⟩
  · intro p' va placement _
    exact ⟨rfl, fun _ _ _ _ _ => rfl⟩
  · intro p' placement _
    rfl
  · intro p' va placement _
    exact ⟨rfl, fun _ _ _ _ _ => rfl⟩

/-- Two regions on one device: the second placement, and then its release, leave a record
that does not count the first. -/
theorem second_placement_hides_first :
    let registry : DeviceRegistry := ⟨[⟨(1, 0), .memory, .warm, 64, 100, 0, 0, 0⟩], ⟨1, 1, 1, 1⟩⟩
    let calls : List PlacerCall := [.place ⟨16, .normal, none⟩ 1, .place ⟨8, .normal, none⟩ 1]
    let placed := (Runs.run step (start registry [((1, 0), 0, 64)]) calls).1
    let freed := (placed.step (.free ⟨2⟩)).1
    (placed.registry.get 1 0).map (fun profile => profile.usedBytes.toNat) = some 8 ∧
      placed.liveBytes (1, 0) = 24 ∧
      (freed.registry.get 1 0).map (fun profile => profile.usedBytes.toNat) = some 0 ∧
      freed.liveBytes (1, 0) = 16 := by
  decide

end Placer
end UniBus.Managed
