import UniBus.Foundations.Checked
import UniBus.Foundations.Ranges
import UniBus.Foundations.Runs
import UniBus.Managed.Placer

/-!
# The books of the placer

Runs of `place`, `free` and `set_mr_handle`. The placements ever made are the log of
a run: region ids are not used again and the pools hand out ranges apart from each
other, freed or not.
-/
namespace UniBus.Managed

open Ranges (Logged span)

namespace RegionPlacement

variable (r : RegionPlacement)

def deviceKey : UInt16 × UInt16 := (r.homeNodeId, r.deviceId)

/-- Where the region lies in the pool: its start and its length. -/
def bytes : ℕ × ℕ := (r.baseOffset.toNat, r.len.toNat)

end RegionPlacement

inductive PlacerCall
  | place (hints : AllocHints) (requesterNodeId : UInt16)
  | free (regionId : RegionId)
  | setMrHandle (regionId : RegionId) (mrHandle : UInt32)
  deriving DecidableEq, Repr

namespace Placer

/-- A placer with its pools, given by device key, base offset and length. -/
def start (registry : DeviceRegistry) (pools : List ((UInt16 × UInt16) × UInt64 × UInt64)) :
    Placer :=
  pools.foldl
    (fun p pool => p.registerSubAllocator pool.1.1 pool.1.2 (.new pool.2.1 pool.2.2))
    (new registry)

def step (p : Placer) : PlacerCall → Placer × List RegionPlacement
  | .place hints requesterNodeId =>
    match p.place hints requesterNodeId with
    | .ok (p, _, placement) => (p, [placement])
    | .error _ => (p, [])
  | .free regionId =>
    match p.free regionId with
    | some (p, _) => (p, [])
    | none => (p, [])
  | .setMrHandle regionId mrHandle => (p.setMrHandle regionId mrHandle, [])

/-- The additions of the allocators do not wrap. -/
def WellSized (p : Placer) : Prop :=
  ∀ key a, p.subAllocators.lookup key = some a →
    a.baseOffset.toNat + a.totalLen.toNat < 2 ^ 64 ∧
      ∀ profile ∈ p.registry.profiles, profile.deviceKey = key →
        a.totalLen.toNat + profile.capacityBytes.toNat < 2 ^ 64

/-- A placement, seen from the placements made before it. -/
structure Adds (log : List RegionPlacement) (p p' : Placer) (va : UbVa)
    (placement : RegionPlacement) : Prop where
  unused : ∀ r ∈ log, r.regionId ≠ placement.regionId
  before : p.lookup placement.regionId = none
  after : p'.lookup placement.regionId = some placement
  others : ∀ id, id ≠ placement.regionId → p'.lookup id = p.lookup id
  regionId : va.regionId = placement.regionId
  offset : va.offset = 0

/-- A placement lies in the pool of its device. -/
def InPool (p : Placer) (r : RegionPlacement) : Prop :=
  ∃ a, p.subAllocators.lookup r.deviceKey = some a ∧
    a.baseOffset.toNat ≤ r.baseOffset.toNat ∧
    r.baseOffset.toNat + r.len.toNat ≤ a.baseOffset.toNat + a.totalLen.toNat

/-! ## Ids and ranges -/

def cursor (p : Placer) (key : UInt16 × UInt16) : ℕ :=
  ((p.subAllocators.lookup key).map fun a => a.baseOffset.toNat + a.allocated.toNat).getD 0

/-- The pools of two placers are the same, apart from what is allocated. -/
def SamePools (p p' : Placer) : Prop :=
  ∀ key, (p'.subAllocators.lookup key).map (fun a => (a.baseOffset, a.totalLen)) =
    (p.subAllocators.lookup key).map fun a => (a.baseOffset, a.totalLen)

/-- The devices of the registry had their capacities before. -/
def KeepsCapacities (p p' : Placer) : Prop :=
  ∀ profile ∈ p'.registry.profiles, ∃ q ∈ p.registry.profiles,
    q.deviceKey = profile.deviceKey ∧ q.capacityBytes = profile.capacityBytes

/-- A placer that made the placements of the log since `origin`. -/
structure Booked (origin : Placer) (log : List RegionPlacement) (p : Placer) : Prop where
  sized : p.WellSized
  pools : origin.SamePools p
  allocated_le : ∀ key a, p.subAllocators.lookup key = some a →
    a.allocated.toNat ≤ a.totalLen.toNat
  nextRegionId_eq : p.nextRegionId = UInt64.ofNat (log.length + 1)
  id_le : ∀ r ∈ log, r.regionId.id.toNat ≤ log.length
  logged : Logged RegionPlacement.deviceKey RegionPlacement.bytes log p.cursor
  inPool : ∀ r ∈ log, origin.InPool r
  live : ∀ id r, p.regions.lookup id = some r → ∃ q ∈ log, q.regionId = id

variable {origin p p' : Placer} {log : List RegionPlacement}

theorem SamePools.exists (h : SamePools p p') {key : UInt16 × UInt16} {a' : SubAllocator}
    (ha' : p'.subAllocators.lookup key = some a') :
    ∃ a, p.subAllocators.lookup key = some a ∧ a.baseOffset = a'.baseOffset ∧
      a.totalLen = a'.totalLen := by
  have hkey := h key
  rw [ha', Option.map_some] at hkey
  obtain ⟨a, ha, heq⟩ := Option.map_eq_some_iff.mp hkey.symm
  exact ⟨a, ha, congrArg Prod.fst heq, congrArg Prod.snd heq⟩

theorem WellSized.of_same (h : p.WellSized) (hpools : SamePools p p')
    (hcapacities : KeepsCapacities p p') : p'.WellSized := by
  intro key a' ha'
  obtain ⟨a, ha, hbase, htotal⟩ := hpools.exists ha'
  obtain ⟨hend, hcapacity⟩ := h key a ha
  rw [← hbase, ← htotal]
  refine ⟨hend, ?_⟩
  intro profile hprofile hkey
  obtain ⟨q, hq, hqkey, hqcapacity⟩ := hcapacities profile hprofile
  rw [← hqcapacity]
  exact hcapacity q hq (hqkey.trans hkey)

theorem Booked.of_same (h : Booked origin log p)
    (hallocators : ∀ key, p'.subAllocators.lookup key = p.subAllocators.lookup key)
    (hcapacities : KeepsCapacities p p') (hnext : p'.nextRegionId = p.nextRegionId)
    (hlive : ∀ id r, p'.regions.lookup id = some r → ∃ r', p.regions.lookup id = some r') :
    Booked origin log p' := by
  have hcursor : p'.cursor = p.cursor := by
    funext key
    rw [cursor, hallocators, cursor]
  constructor
  · apply h.sized.of_same _ hcapacities
    intro key
    rw [hallocators]
  · intro key
    rw [hallocators]
    exact h.pools key
  · intro key a ha
    rw [hallocators] at ha
    exact h.allocated_le key a ha
  · exact hnext.trans h.nextRegionId_eq
  · exact h.id_le
  · rw [hcursor]
    exact h.logged
  · exact h.inPool
  · intro id r hr
    obtain ⟨r', hr'⟩ := hlive id r hr
    exact h.live id r' hr'

section Place
variable {hints : AllocHints} {requesterNodeId : UInt16} {key : UInt16 × UInt16}
  {a : SubAllocator} {va : UbVa} {placement : RegionPlacement}

/-- The capacity filter keeps the additions of the allocator below `2 ^ 64`. -/
theorem Booked.toNat_alloc (h : Booked origin log p)
    (htarget : p.target hints requesterNodeId = .ok (key, a)) :
    (a.allocated + hints.size).toNat = a.allocated.toNat + hints.size.toNat ∧
      (a.baseOffset + a.allocated).toNat = a.baseOffset.toNat + a.allocated.toNat := by
  have hlookup := p.target_eq_ok htarget
  have hle := h.allocated_le key a hlookup
  obtain ⟨hend, hcapacity⟩ := h.sized key a hlookup
  obtain ⟨profile, hmem, hkey, hsize⟩ := p.profile_of_target htarget
  have hroom := hcapacity profile hmem hkey
  constructor
  · exact Checked.toNat_addU64 (by omega)
  · exact Checked.toNat_addU64 (by omega)

theorem Booked.toNat_nextRegionId (h : Booked origin log p) (hids : log.length < 2 ^ 64 - 1) :
    p.nextRegionId.toNat = log.length + 1 := by
  have hlt : log.length + 1 < 2 ^ 64 := by omega
  rw [h.nextRegionId_eq]
  exact UInt64.toNat_ofNat_of_lt' hlt

theorem Booked.adds (h : Booked origin log p) (hids : log.length < 2 ^ 64 - 1)
    (hplace : p.place hints requesterNodeId = .ok (p', va, placement)) :
    Adds log p p' va placement := by
  obtain ⟨key, a, htarget, hfits, rfl, rfl, rfl⟩ := p.place_inv hplace
  have hnext := h.toNat_nextRegionId hids
  have hunused : ∀ r ∈ log, r.regionId ≠ ⟨p.nextRegionId⟩ := by
    intro r hr heq
    have hle := h.id_le r hr
    rw [heq, hnext] at hle
    omega
  constructor
  · exact hunused
  · rw [lookup, Option.eq_none_iff_forall_ne_some]
    intro r hr
    obtain ⟨q, hq, hid⟩ := h.live _ r hr
    exact hunused q hq hid
  · exact AList.lookup_insert _
  · intro id hid
    exact AList.lookup_insert_ne hid
  · exact UbVa.regionId_new _ _
  · exact UbVa.offset_new _ _

section
variable (hplace : p.place hints requesterNodeId = .ok (p', va, placement))
  (htarget : p.target hints requesterNodeId = .ok (key, a))
include hplace htarget

theorem lookup_place (key' : UInt16 × UInt16) :
    p'.subAllocators.lookup key' =
      if key' = key then some { a with allocated := a.allocated + hints.size }
      else p.subAllocators.lookup key' := by
  obtain ⟨chosen, a', htarget', -, -, -, rfl⟩ := p.place_inv hplace
  cases htarget.symm.trans htarget'
  by_cases hkey : key' = key
  · rw [if_pos hkey, hkey]
    exact AList.lookup_insert _
  · rw [if_neg hkey]
    exact AList.lookup_insert_ne hkey

theorem samePools_place : SamePools p p' := by
  intro key'
  rw [lookup_place hplace htarget]
  split_ifs with hkey
  · rw [hkey, p.target_eq_ok htarget]
    rfl
  · rfl

/-- The range that a placement takes from the chosen pool, which has room for it. -/
theorem Booked.bytes_place (h : Booked origin log p) :
    placement.deviceKey = key ∧
      placement.bytes = (a.baseOffset.toNat + a.allocated.toNat, hints.size.toNat) ∧
      a.allocated.toNat + hints.size.toNat ≤ a.totalLen.toNat := by
  obtain ⟨key', a', htarget', hfits, rfl, -, -⟩ := p.place_inv hplace
  cases htarget.symm.trans htarget'
  obtain ⟨hsum, hbase⟩ := h.toNat_alloc htarget
  rw [UInt64.le_iff_toNat_le, hsum] at hfits
  refine ⟨rfl, ?_, hfits⟩
  rw [RegionPlacement.bytes, hbase]

theorem Booked.logged_place (h : Booked origin log p) :
    Logged RegionPlacement.deviceKey RegionPlacement.bytes (log ++ [placement]) p'.cursor := by
  have hlookup := p.target_eq_ok htarget
  obtain ⟨hsum, -⟩ := h.toNat_alloc htarget
  obtain ⟨hdevice, hbytes, -⟩ := h.bytes_place hplace htarget
  have hcursor : p.cursor key = a.baseOffset.toNat + a.allocated.toNat := by
    rw [cursor, hlookup]
    rfl
  have hcursor' : p'.cursor key =
      a.baseOffset.toNat + (a.allocated.toNat + hints.size.toNat) := by
    rw [cursor, lookup_place hplace htarget, if_pos rfl, ← hsum]
    rfl
  apply h.logged.concat
  · rw [hdevice, hbytes, hcursor]
  · intro key'
    by_cases hkey : key' = key
    · rw [hkey, hcursor, hcursor']
      omega
    · rw [cursor, cursor, lookup_place hplace htarget, if_neg hkey]
  · rw [hdevice, hbytes, hcursor']
    omega

theorem Booked.inPool_place (h : Booked origin log p) : origin.InPool placement := by
  obtain ⟨hdevice, hbytes, hfits⟩ := h.bytes_place hplace htarget
  obtain ⟨a₀, ha₀, hbase₀, htotal₀⟩ := h.pools.exists (p.target_eq_ok htarget)
  have hstart : placement.baseOffset.toNat = a.baseOffset.toNat + a.allocated.toNat :=
    congrArg Prod.fst hbytes
  have hlen : placement.len.toNat = hints.size.toNat := congrArg Prod.snd hbytes
  refine ⟨a₀, ?_, ?_⟩
  · rw [hdevice]
    exact ha₀
  · rw [hbase₀, htotal₀]
    omega

end

theorem Booked.place (h : Booked origin log p) (hids : log.length < 2 ^ 64 - 1)
    (hplace : p.place hints requesterNodeId = .ok (p', va, placement)) :
    Booked origin (log ++ [placement]) p' := by
  obtain ⟨key, a, htarget, -, hplacement, -, hp'⟩ := p.place_inv hplace
  have hmem : ∀ r, r ∈ log ++ [placement] ↔ r ∈ log ∨ r = placement := by
    simp
  constructor
  · apply h.sized.of_same (samePools_place hplace htarget)
    intro profile hprofile
    rw [hp'] at hprofile
    exact DeviceRegistry.capacity_updateDynamic hprofile
  · intro key'
    exact (samePools_place hplace htarget key').trans (h.pools key')
  · intro key' a' ha'
    rw [lookup_place hplace htarget] at ha'
    split_ifs at ha' with hkey
    · cases ha'
      rw [(h.toNat_alloc htarget).1]
      exact (h.bytes_place hplace htarget).2.2
    · exact h.allocated_le key' a' ha'
  · rw [List.length_append, List.length_singleton, hp', h.nextRegionId_eq]
    exact (UInt64.ofNat_add _ 1).symm
  · intro r hr
    rw [List.length_append, List.length_singleton]
    rcases (hmem r).mp hr with hr | rfl
    · exact (h.id_le r hr).trans (Nat.le_succ _)
    · rw [hplacement]
      exact (h.toNat_nextRegionId hids).le
  · exact h.logged_place hplace htarget
  · intro r hr
    rcases (hmem r).mp hr with hr | rfl
    · exact h.inPool r hr
    · exact h.inPool_place hplace htarget
  · intro id r hr
    rw [hp'] at hr
    by_cases hid : id = placement.regionId
    · exact ⟨placement, by simp, hid.symm⟩
    · rw [AList.lookup_insert_ne hid] at hr
      obtain ⟨q, hq, hqid⟩ := h.live id r hr
      exact ⟨q, List.mem_append_left _ hq, hqid⟩

end Place

theorem Booked.free {regionId : RegionId} {placement : RegionPlacement}
    (h : Booked origin log p) (hfree : p.free regionId = some (p', placement)) :
    Booked origin log p' := by
  obtain ⟨-, hregions, hnext, hregistry, hallocators⟩ := p.free_inv hfree
  apply h.of_same hallocators _ hnext
  · intro id r hr
    rw [hregions] at hr
    exact ⟨r, Maps.lookup_erase_of_some hr⟩
  · intro profile hprofile
    rw [hregistry] at hprofile
    exact DeviceRegistry.capacity_updateDynamic hprofile

theorem Booked.setMrHandle (h : Booked origin log p) (regionId : RegionId) (mrHandle : UInt32) :
    Booked origin log (p.setMrHandle regionId mrHandle) := by
  have hallocators : ∀ key, (p.setMrHandle regionId mrHandle).subAllocators.lookup key =
      p.subAllocators.lookup key := fun _ => rfl
  apply h.of_same hallocators _ rfl
  · intro id r hr
    obtain ⟨old, hold, -⟩ := Maps.lookup_modify_eq_some hr
    exact ⟨old, hold⟩
  · intro profile hprofile
    exact ⟨profile, hprofile, rfl, rfl⟩

theorem Booked.step (h : Booked origin log p) (hids : log.length < 2 ^ 64 - 1)
    (call : PlacerCall) : Booked origin (log ++ (p.step call).2) (p.step call).1 := by
  cases call with
  | place hints requesterNodeId =>
    simp only [Placer.step]
    cases hplace : p.place hints requesterNodeId with
    | error e =>
      rw [List.append_nil]
      exact h
    | ok placed =>
      obtain ⟨p', va, placement⟩ := placed
      exact h.place hids hplace
  | free regionId =>
    simp only [Placer.step]
    cases hfree : p.free regionId with
    | none =>
      rw [List.append_nil]
      exact h
    | some freed =>
      obtain ⟨p', placement⟩ := freed
      rw [List.append_nil]
      exact h.free hfree
  | setMrHandle regionId mrHandle =>
    simp only [Placer.step]
    rw [List.append_nil]
    exact h.setMrHandle regionId mrHandle

/-! ## Whole runs -/

theorem start_inv (registry : DeviceRegistry)
    (pools : List ((UInt16 × UInt16) × UInt64 × UInt64)) :
    (start registry pools).registry = registry ∧ (start registry pools).regions = ∅ ∧
      (start registry pools).nextRegionId = 1 ∧
      ∀ key a, (start registry pools).subAllocators.lookup key = some a → a.allocated = 0 := by
  induction pools using List.reverseRecOn with
  | nil =>
    refine ⟨rfl, rfl, rfl, ?_⟩
    intro key a ha
    rw [start, List.foldl_nil, new, AList.lookup_empty] at ha
    cases ha
  | append_singleton pools pool ih =>
    obtain ⟨hregistry, hregions, hnext, hallocated⟩ := ih
    have hstart : start registry (pools ++ [pool]) =
        (start registry pools).registerSubAllocator pool.1.1 pool.1.2
          (.new pool.2.1 pool.2.2) := by
      rw [start, List.foldl_append]
      rfl
    rw [hstart]
    refine ⟨hregistry, hregions, hnext, ?_⟩
    intro key a ha
    by_cases hkey : key = pool.1
    · rw [hkey, registerSubAllocator, AList.lookup_insert] at ha
      cases ha
      rfl
    · rw [registerSubAllocator, AList.lookup_insert_ne hkey] at ha
      exact hallocated key a ha

theorem booked_start {registry : DeviceRegistry}
    {pools : List ((UInt16 × UInt16) × UInt64 × UInt64)}
    (hsized : (start registry pools).WellSized) :
    Booked (start registry pools) [] (start registry pools) := by
  obtain ⟨-, hregions, hnext, hallocated⟩ := start_inv registry pools
  constructor
  · exact hsized
  · intro key
    rfl
  · intro key a ha
    rw [hallocated key a ha]
    exact Nat.zero_le _
  · exact hnext
  · simp
  · exact Ranges.logged_nil
  · simp
  · intro id r hr
    rw [hregions, AList.lookup_empty] at hr
    cases hr

theorem length_step_le (p : Placer) (call : PlacerCall) : (p.step call).2.length ≤ 1 := by
  cases call with
  | place hints requesterNodeId =>
    simp only [step]
    cases p.place hints requesterNodeId <;> simp
  | free regionId =>
    simp only [step]
    cases p.free regionId <;> simp
  | setMrHandle regionId mrHandle => exact Nat.zero_le 1

/-- Whatever calls came before, a placement is new and leaves the others alone, and all
placements ever made on a device lie apart in its pool. -/
theorem placements_kept (registry : DeviceRegistry)
    (pools : List ((UInt16 × UInt16) × UInt64 × UInt64))
    (hsized : (start registry pools).WellSized) (calls : List PlacerCall)
    (hcalls : calls.length < 2 ^ 64 - 1) :
    let run := Runs.run step (start registry pools) calls
    (∀ r ∈ run.2, (start registry pools).InPool r) ∧
      (run.2.Pairwise fun r r' =>
        r.deviceKey = r'.deviceKey → Disjoint (span r.bytes) (span r'.bytes)) ∧
      (∀ hints requesterNodeId p' va placement,
        run.1.place hints requesterNodeId = .ok (p', va, placement) →
          Adds run.2 run.1 p' va placement) ∧
      ∀ hints requesterNodeId e, run.1.place hints requesterNodeId = .error e →
        run.1.step (.place hints requesterNodeId) = (run.1, []) := by
  intro run
  have hids : run.2.length < 2 ^ 64 - 1 :=
    (Runs.length_log_le step length_step_le _ calls).trans_lt hcalls
  have hmeets : Runs.Meets step (fun p log call => (log ++ (p.step call).2).length < 2 ^ 64 - 1)
      (start registry pools) [] calls := by
    refine Runs.meets_of_log (P := fun log => log.length < 2 ^ 64 - 1) ?_ hids
    intro log events hlength
    rw [List.length_append] at hlength
    omega
  have h : Booked (start registry pools) run.2 run.1 := by
    refine Runs.run_invariant (I := fun p log => Booked (start registry pools) log p) ?_
      (booked_start hsized) hmeets
    intro p log call h hlength
    rw [List.length_append] at hlength
    exact h.step (by omega) call
  refine ⟨h.inPool, h.logged.disjoint, ?_, ?_⟩
  · intro hints requesterNodeId p' va placement hplace
    exact h.adds hids hplace
  · intro hints requesterNodeId e herror
    simp only [step, herror]

theorem placements_kept_freed :
    let registry : DeviceRegistry := ⟨[⟨(1, 0), .memory, .warm, 64, 100, 0, 0, 0⟩], ⟨1, 1, 1, 1⟩⟩
    let origin := start registry [((1, 0), 100, 64)]
    let calls : List PlacerCall :=
      [.place ⟨16, .normal, none⟩ 1, .free ⟨1⟩, .place ⟨8, .normal, none⟩ 1]
    let run := Runs.run step origin calls
    run.2.map RegionPlacement.bytes = [(100, 16), (116, 8)] ∧ ∀ r ∈ run.2, origin.InPool r := by
  intro registry origin calls run
  have hsized : origin.WellSized := by
    intro key a ha
    have hkey : key = (1, 0) := by
      by_contra hne
      rw [show origin.subAllocators.lookup key = none from AList.lookup_insert_ne hne] at ha
      cases ha
    subst hkey
    cases ha
    decide
  exact ⟨by decide, (placements_kept registry [((1, 0), 100, 64)] hsized calls (by decide)).1⟩

end Placer
end UniBus.Managed
