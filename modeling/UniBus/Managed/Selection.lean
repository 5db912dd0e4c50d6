import UniBus.Managed.Registry

/-!
# Feasible and optimal device selection

The loop of the selection is an argmin over the devices that pass the filters,
so what it finds, and which of several equal devices it finds, follows from the
order of the list. The registry keeps at most one profile for each key through
every sequence of its calls.
-/
namespace UniBus.Managed
namespace DeviceRegistry

/-! ## The selected device -/

section Selected

variable {r : DeviceRegistry} {requesterNode : UInt16} {latencyClass : LatencyClass}
  {pin : Option DeviceKind} {size : UInt64}

/-- Enough free space, and the pinned kind if there is one. -/
def Feasible (pin : Option DeviceKind) (size : UInt64) (p : DeviceProfile) : Prop :=
  size ≤ p.freeBytes ∧ ∀ kind ∈ pin, p.kind = kind

theorem suitable_iff {p : DeviceProfile} : suitable pin size p = true ↔ Feasible pin size p := by
  cases pin <;> simp [suitable, Feasible]

theorem bestDevice_eq_none_iff :
    r.bestDevice requesterNode latencyClass pin size = none ↔
      ∀ p ∈ r.profiles, ¬Feasible pin size p := by
  rw [bestDevice_eq_argmin, Option.map_eq_none_iff, List.argmin_eq_none, List.filter_eq_nil_iff]
  simp only [suitable_iff]

/-- `p` stands in the list, has the least score of the feasible devices, and those
before it all score higher. -/
def FirstBest (r : DeviceRegistry) (requesterNode : UInt16) (latencyClass : LatencyClass)
    (pin : Option DeviceKind) (size : UInt64) (p : DeviceProfile) : Prop :=
  ∃ before after, r.profiles = before ++ p :: after ∧ Feasible pin size p ∧
    (∀ q ∈ r.profiles, Feasible pin size q →
      r.score requesterNode latencyClass p ≤ r.score requesterNode latencyClass q) ∧
    ∀ q ∈ before, Feasible pin size q →
      r.score requesterNode latencyClass p < r.score requesterNode latencyClass q

theorem firstBest_of_argmin {p : DeviceProfile}
    (h : p ∈ (r.profiles.filter (suitable pin size)).argmin
      (r.score requesterNode latencyClass)) :
    r.FirstBest requesterNode latencyClass pin size p := by
  obtain ⟨hmem, hleast, hfirst⟩ := List.mem_argmin_iff.mp h
  obtain ⟨hregistered, hsuitable⟩ := List.mem_filter.mp hmem
  obtain ⟨before, after, hsplit, hbefore⟩ := List.eq_append_cons_of_mem hregistered
  refine ⟨before, after, hsplit, suitable_iff.mp hsuitable, ?_, ?_⟩
  · intro q hq hfeasible
    exact hleast q (List.mem_filter.mpr ⟨hq, suitable_iff.mpr hfeasible⟩)
  · intro q hq hfeasible
    by_contra hle
    have hq' : q ∈ before.filter (suitable pin size) :=
      List.mem_filter.mpr ⟨hq, suitable_iff.mpr hfeasible⟩
    have hp' : p ∉ before.filter (suitable pin size) := fun hp =>
      hbefore (List.mem_of_mem_filter hp)
    have hindex := hfirst q (List.mem_filter.mpr ⟨by simp [hsplit, hq], suitable_iff.mpr hfeasible⟩)
      (not_lt.mp hle)
    -- `q` has its place in the part of the list that ends before `p`
    rw [hsplit, List.filter_append, List.idxOf_append_of_notMem hp',
      List.idxOf_append_of_mem hq'] at hindex
    have hplace := List.idxOf_lt_length_iff.mpr hq'
    omega

end Selected

/-! ## The calls on a registry -/

inductive Call
  | register (profile : DeviceProfile)
  | updateDynamic (nodeId deviceId : UInt16) (usedBytes : UInt64) (recentRps : UInt32)
  | removeNode (nodeId : UInt16)

def apply (r : DeviceRegistry) : Call → DeviceRegistry
  | .register profile => r.register profile
  | .updateDynamic nodeId deviceId usedBytes recentRps =>
    r.updateDynamic nodeId deviceId usedBytes recentRps
  | .removeNode nodeId => r.removeNode nodeId

def keys (r : DeviceRegistry) : List (UInt16 × UInt16) := r.profiles.map DeviceProfile.deviceKey

section Keys

variable {r : DeviceRegistry}

theorem nodup_keys_register (h : r.keys.Nodup) (profile : DeviceProfile) :
    (r.register profile).keys.Nodup := by
  unfold register
  cases hfind : r.profiles.findIdx? fun p => p.deviceKey = profile.deviceKey with
  | none =>
    have hfresh : profile.deviceKey ∉ r.keys := by
      intro hmem
      obtain ⟨p, hp, hkey⟩ := List.mem_map.mp hmem
      have := List.findIdx?_eq_none_iff.mp hfind p hp
      simp [hkey] at this
    simpa [keys] using h.append (List.nodup_singleton _) (by simpa using hfresh)
  | some i =>
    obtain ⟨hi, hkey, -⟩ := List.findIdx?_eq_some_iff_getElem.mp hfind
    have hi' : i < r.keys.length := by simpa [keys] using hi
    -- the replaced profile had the same key
    have hsame : r.keys[i] = profile.deviceKey := by simpa [keys] using hkey
    have hset : (r.profiles.set i profile).map DeviceProfile.deviceKey = r.keys := by
      rw [List.map_set, ← hsame]
      exact List.set_getElem_self hi'
    rw [← hset] at h
    exact h

theorem keys_updateDynamic (nodeId deviceId : UInt16) (usedBytes : UInt64) (recentRps : UInt32) :
    (r.updateDynamic nodeId deviceId usedBytes recentRps).keys = r.keys := by
  rw [keys, profiles_updateDynamic]
  apply List.ext_getElem?
  intro i
  rw [keys, List.getElem?_map, List.getElem?_map, List.getElem?_modify, Option.map_eq_map,
    Option.map_map]
  apply congrArg (Option.map · _)
  funext p
  dsimp only [Function.comp_apply]
  split_ifs <;> rfl

theorem nodup_keys_removeNode (h : r.keys.Nodup) (nodeId : UInt16) :
    (r.removeNode nodeId).keys.Nodup :=
  h.sublist (List.filter_sublist.map _)

theorem nodup_keys_apply (h : r.keys.Nodup) (call : Call) : (r.apply call).keys.Nodup := by
  cases call with
  | register profile => exact nodup_keys_register h profile
  | updateDynamic nodeId deviceId usedBytes recentRps =>
    rw [apply, keys_updateDynamic]
    exact h
  | removeNode nodeId => exact nodup_keys_removeNode h nodeId

theorem nodup_keys_foldl (h : r.keys.Nodup) (calls : List Call) :
    (calls.foldl apply r).keys.Nodup := by
  induction calls generalizing r with
  | nil => exact h
  | cons call calls ih => exact ih (nodup_keys_apply h call)

end Keys

/-- The selection fails only where no device is feasible, else it finds the first device
of least score; and no key is registered twice. -/
theorem selection_optimal :
    (∀ (r : DeviceRegistry) (requesterNode : UInt16) (latencyClass : LatencyClass)
      (pin : Option DeviceKind) (size : UInt64),
      (r.bestDevice requesterNode latencyClass pin size = none ↔
        ¬∃ p ∈ r.profiles, Feasible pin size p) ∧
      ((∃ p ∈ r.profiles, Feasible pin size p) →
        ∃ p, r.bestDevice requesterNode latencyClass pin size = some p.deviceKey ∧
          r.FirstBest requesterNode latencyClass pin size p)) ∧
    ∀ (weights : CostWeights) (calls : List Call),
      (calls.foldl apply (new weights)).keys.Nodup := by
  refine ⟨fun r requesterNode latencyClass pin size => ⟨?_, ?_⟩, fun weights calls => ?_⟩
  · rw [bestDevice_eq_none_iff]
    simp only [not_exists, not_and]
  · rintro ⟨q, hq, hfeasible⟩
    have hsome : r.bestDevice requesterNode latencyClass pin size ≠ none := fun hnone =>
      bestDevice_eq_none_iff.mp hnone q hq hfeasible
    obtain ⟨key, hkey⟩ := Option.ne_none_iff_exists'.mp hsome
    rw [bestDevice_eq_argmin] at hkey
    obtain ⟨p, hp, rfl⟩ := Option.map_eq_some_iff.mp hkey
    exact ⟨p, by rw [bestDevice_eq_argmin, hkey], firstBest_of_argmin hp⟩
  · have hnew : (new weights).keys.Nodup := List.nodup_nil
    exact nodup_keys_foldl hnew calls

/-- Three devices on other nodes, the two of enough space alike: the first of them is taken. -/
theorem selection_optimal_tie :
    let r : DeviceRegistry :=
      ⟨[⟨(2, 0), .memory, .warm, 32, 100, 0, 0, 0⟩, ⟨(3, 0), .memory, .warm, 64, 100, 0, 0, 0⟩,
        ⟨(4, 0), .memory, .warm, 64, 100, 0, 0, 0⟩], ⟨1, 1, 1, 1⟩⟩
    r.bestDevice 1 .normal (some .memory) 48 = some (3, 0) ∧
      ∃ p, r.bestDevice 1 .normal (some .memory) 48 = some p.deviceKey ∧
        r.FirstBest 1 .normal (some .memory) 48 p := by
  intro r
  refine ⟨by decide +kernel, (selection_optimal.1 r 1 .normal (some .memory) 48).2 ?_⟩
  refine ⟨⟨(3, 0), .memory, .warm, 64, 100, 0, 0, 0⟩, by simp [r], by decide, ?_⟩
  intro kind hkind
  cases hkind
  rfl

end DeviceRegistry
end UniBus.Managed
