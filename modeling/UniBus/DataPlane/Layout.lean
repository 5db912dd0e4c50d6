import UniBus.DataPlane.Registration
import UniBus.Foundations.Maps

/-!
# The layout of the local table

Regions come and go, their offsets and handles do not come back: as long as the
address space of every device id and the handle counter last, all regions that were
ever registered under one id are aligned and apart. An address then falls into at
most one region of the table, so its lookup does not depend on the order in which
the map is scanned.
-/
namespace UniBus.DataPlane

open Ranges (Logged span)

/-- The calls that change the local table. -/
inductive MrCall
  | register (c : Registration)
  | deregister (handle : UInt32)
  deriving DecidableEq, Repr

def mrStep (mem : Memory) (t : MrTable) : MrCall → MrTable × List MrEntry
  | .register c =>
    match t.register mem c.device c.len c.perms with
    | .ok (t, _, handle) => (t, (t.lookup handle).toList)
    | .error _ => (t, [])
  | .deregister handle =>
    match t.deregister handle with
    | .ok t => (t, [])
    | .error _ => (t, [])

/-- The lengths of the regions of a device id, each rounded up to the alignment. -/
def alignedTotal (id : UInt16) (log : List MrEntry) : ℕ :=
  ((log.filter fun e => e.baseUbAddr.deviceId = id).map fun e => roundUp e.len.toNat).sum

def bytesOf (e : MrEntry) : ℕ × ℕ := (e.baseOffset.toNat, e.len.toNat)

theorem alignedTotal_append (id : UInt16) (log log' : List MrEntry) :
    alignedTotal id (log ++ log') = alignedTotal id log + alignedTotal id log' := by
  simp [alignedTotal]

theorem alignedTotal_singleton (id : UInt16) (e : MrEntry) :
    alignedTotal id [e] = if e.baseUbAddr.deviceId = id then roundUp e.len.toNat else 0 := by
  by_cases h : e.baseUbAddr.deviceId = id <;> simp [alignedTotal, h]

/-- Handles and address space suffice for the regions registered so far. -/
structure InRoom (log : List MrEntry) : Prop where
  handles : log.length < 2 ^ 32
  bytes : ∀ id, alignedTotal id log < 2 ^ 64

theorem InRoom.of_append {log log' : List MrEntry} (h : InRoom (log ++ log')) : InRoom log := by
  constructor
  · have hlength := h.handles
    rw [List.length_append] at hlength
    omega
  · intro id
    have hbytes := h.bytes id
    rw [alignedTotal_append] at hbytes
    omega

/-! ## One call -/

/-- All regions ever registered, and the table they were registered in. -/
structure Layout (mem : Memory) (log : List MrEntry) (t : MrTable) : Prop where
  cursor_eq : ∀ id, roundUp (cursor t id).toNat = alignedTotal id log
  nextHandle_eq : t.nextHandle = UInt32.ofNat (log.length + 1)
  device : ∀ e ∈ log, e.baseUbAddr.deviceId = (mem e.device).deviceId
  aligned : ∀ e ∈ log, 8 ∣ e.baseOffset.toNat
  logged : Logged (fun e => e.baseUbAddr.deviceId) bytesOf log fun id => (cursor t id).toNat
  handle_le : ∀ e ∈ log, e.handle.toNat ≤ log.length
  nodup : (log.map fun e => e.handle).Nodup
  present : ∀ handle e, t.lookup handle = some e → e ∈ log ∧ e.handle = handle

section
variable {mem : Memory} {t : MrTable} {log : List MrEntry} {c : Registration}

theorem layout_new (mem : Memory) (podId nodeId : UInt16) :
    Layout mem [] (MrTable.new podId nodeId) := by
  have hnew := laid_new mem podId nodeId
  constructor
  · exact hnew.cursor_eq
  · rfl
  · simp
  · simp
  · exact Ranges.logged_nil
  · simp
  · exact List.nodup_nil
  · intro handle e he
    have hnone : (MrTable.new podId nodeId).lookup handle = none := AList.lookup_empty handle
    rw [hnone] at he
    cases he

theorem mrStep_register (hlen : c.len ≠ 0) :
    mrStep mem t (.register c) = (registerCall mem t c, [newEntry mem t c]) := by
  have hlookup : (registerCall mem t c).lookup t.nextHandle = _ :=
    lookup_registerCall hlen t.nextHandle
  rw [if_pos rfl] at hlookup
  simp only [mrStep, registerCall, MrTable.register, if_neg hlen] at hlookup ⊢
  rw [hlookup]
  rfl

theorem deviceId_newEntry : (newEntry mem t c).baseUbAddr.deviceId = (mem c.device).deviceId := by
  simp [newEntry]

section
variable (hl : Layout mem log t)
include hl

theorem Layout.newEntry_bytes (hlen : c.len ≠ 0) (hroom : InRoom (log ++ [newEntry mem t c])) :
    (newEntry mem t c).baseOffset.toNat = alignedTotal (mem c.device).deviceId log ∧
      alignedTotal (mem c.device).deviceId log + roundUp c.len.toNat < 2 ^ 64 := by
  have hbytes := hroom.bytes (mem c.device).deviceId
  rw [alignedTotal_append, alignedTotal_singleton, if_pos deviceId_newEntry] at hbytes
  have hpos : c.len.toNat ≠ 0 := fun h => hlen (UInt64.toNat_inj.mp h)
  have hcursor := hl.cursor_eq (mem c.device).deviceId
  have hsmall : (cursor t (mem c.device).deviceId).toNat + 7 < 2 ^ 64 := by
    simp only [roundUp, newEntry] at hbytes hcursor
    omega
  refine ⟨?_, hbytes⟩
  rw [← hcursor]
  exact toNat_allocOffset hsmall c.len

theorem Layout.toNat_end (hlen : c.len ≠ 0) (hroom : InRoom (log ++ [newEntry mem t c])) :
    ((newEntry mem t c).baseOffset + c.len).toNat =
      (newEntry mem t c).baseOffset.toNat + c.len.toNat := by
  obtain ⟨hbase, hbytes⟩ := hl.newEntry_bytes hlen hroom
  apply Checked.toNat_addU64
  simp only [roundUp] at hbytes
  omega

theorem Layout.cursor_register (hlen : c.len ≠ 0) (hroom : InRoom (log ++ [newEntry mem t c]))
    (id : UInt16) :
    roundUp (cursor (registerCall mem t c) id).toNat =
      alignedTotal id (log ++ [newEntry mem t c]) := by
  rw [cursor_registerCall hlen, alignedTotal_append, alignedTotal_singleton, deviceId_newEntry]
  by_cases h : id = (mem c.device).deviceId
  · subst h
    rw [if_pos rfl, if_pos rfl, hl.toNat_end hlen hroom, (hl.newEntry_bytes hlen hroom).1,
      ← hl.cursor_eq]
    simp only [roundUp, newEntry]
    omega
  · rw [if_neg h, if_neg (Ne.symm h), hl.cursor_eq, Nat.add_zero]

theorem Layout.logged_register (hlen : c.len ≠ 0) (hroom : InRoom (log ++ [newEntry mem t c])) :
    Logged (fun e => e.baseUbAddr.deviceId) bytesOf (log ++ [newEntry mem t c])
      fun id => (cursor (registerCall mem t c) id).toNat := by
  have hstart : (cursor t (mem c.device).deviceId).toNat ≤
      (newEntry mem t c).baseOffset.toNat := by
    rw [(hl.newEntry_bytes hlen hroom).1, ← hl.cursor_eq, roundUp]
    omega
  have hend := hl.toNat_end hlen hroom
  apply hl.logged.concat
  · rw [deviceId_newEntry]
    exact hstart
  · intro id
    rw [cursor_registerCall hlen]
    split_ifs with h
    · subst h
      omega
    · exact le_rfl
  · rw [deviceId_newEntry, cursor_registerCall hlen, if_pos rfl, hend]
    exact le_rfl

theorem Layout.register (hlen : c.len ≠ 0) (hroom : InRoom (log ++ [newEntry mem t c])) :
    Layout mem (log ++ [newEntry mem t c]) (registerCall mem t c) := by
  have hhandle : (newEntry mem t c).handle.toNat = log.length + 1 := by
    have hlength := hroom.handles
    rw [List.length_append, List.length_singleton] at hlength
    rw [newEntry, hl.nextHandle_eq]
    exact UInt32.toNat_ofNat_of_lt' hlength
  have hmem : ∀ e, e ∈ log ++ [newEntry mem t c] ↔ e ∈ log ∨ e = newEntry mem t c := by
    simp
  constructor
  · exact hl.cursor_register hlen hroom
  · have hnext : (registerCall mem t c).nextHandle = t.nextHandle + 1 := by
      simp [registerCall, MrTable.register, hlen]
    rw [List.length_append, List.length_singleton, hnext, hl.nextHandle_eq]
    exact (UInt32.ofNat_add _ 1).symm
  · intro e he
    rcases (hmem e).mp he with he | rfl
    · exact hl.device e he
    · exact deviceId_newEntry
  · intro e he
    rcases (hmem e).mp he with he | rfl
    · exact hl.aligned e he
    · rw [(hl.newEntry_bytes hlen hroom).1, ← hl.cursor_eq, roundUp]
      exact Nat.dvd_mul_left _ _
  · exact hl.logged_register hlen hroom
  · intro e he
    rw [List.length_append, List.length_singleton]
    rcases (hmem e).mp he with he | rfl
    · exact (hl.handle_le e he).trans (Nat.le_succ _)
    · exact hhandle.le
  · rw [List.map_append, List.map_singleton, List.nodup_append]
    refine ⟨hl.nodup, List.nodup_singleton _, ?_⟩
    intro handle hold handle' hnew heq
    obtain ⟨e, he, rfl⟩ := List.mem_map.mp hold
    have hle := hl.handle_le e he
    rw [heq, List.mem_singleton.mp hnew] at hle
    omega
  · intro handle e he
    rw [lookup_registerCall hlen] at he
    rw [hmem]
    split_ifs at he with hh
    · cases he
      exact ⟨Or.inr rfl, hh.symm⟩
    · obtain ⟨hin, heq⟩ := hl.present handle e he
      exact ⟨Or.inl hin, heq⟩

theorem Layout.deregister {t' : MrTable} {handle : UInt32} (h : t.deregister handle = .ok t') :
    Layout mem log t' := by
  unfold MrTable.deregister at h
  split at h
  · cases h
  · split_ifs at h
    cases h
    refine { hl with present := ?_ }
    intro handle' e he
    exact hl.present handle' e (Maps.lookup_erase_of_some he)

theorem Layout.mrStep (call : MrCall) (hroom : InRoom (log ++ (mrStep mem t call).2)) :
    Layout mem (log ++ (mrStep mem t call).2) (mrStep mem t call).1 := by
  cases call with
  | register c =>
    by_cases hlen : c.len = 0
    · simpa [DataPlane.mrStep, MrTable.register, hlen] using hl
    · rw [mrStep_register hlen] at hroom ⊢
      exact hl.register hlen hroom
  | deregister handle =>
    simp only [DataPlane.mrStep]
    cases h : t.deregister handle with
    | ok t' => simpa using hl.deregister h
    | error e => simpa using hl

end

/-! ## Lookups -/

variable {e : MrEntry} {addr : UbAddr}

theorem Layout.end_lt (hl : Layout mem log t) (he : e ∈ log) :
    e.baseOffset.toNat + e.len.toNat < 2 ^ 64 :=
  (hl.logged.below e he).trans_lt (UInt64.toNat_lt _)

section
variable {t' : MrTable} (hsame : ∀ handle, t'.lookup handle = t.lookup handle)
include hsame

/-- A table with the same entries, in any order, finds the region that holds the address. -/
theorem Layout.lookupByAddr (hl : Layout mem log t) {handle : UInt32}
    (he : t.lookup handle = some e) (hold : Holds e addr) :
    t'.lookupByAddr addr = some (e, addr.offset - e.baseOffset) := by
  obtain ⟨hmem, -⟩ := hl.present handle e he
  have hin := (addrInRegion_iff (hl.end_lt hmem)).mpr hold
  apply MrTable.lookupByAddr_eq_some ((hsame handle).trans he) hin
  intro handle' e' he' hin'
  obtain ⟨hmem', -⟩ := hl.present handle' e' ((hsame handle').symm.trans he')
  have hold' := (addrInRegion_iff (hl.end_lt hmem')).mp hin'
  exact hl.logged.eq_of_mem hmem' hmem (hold'.2.1.symm.trans hold.2.1) hold'.2.2 hold.2.2

theorem Layout.lookupByAddr_none (hl : Layout mem log t)
    (hnone : ∀ handle e, t.lookup handle = some e → ¬ Holds e addr) :
    t'.lookupByAddr addr = none := by
  apply MrTable.lookupByAddr_eq_none
  intro handle e he
  rw [hsame] at he
  have hend := hl.end_lt (hl.present handle e he).1
  rw [Bool.eq_false_iff, ne_eq, addrInRegion_iff hend]
  exact hnone handle e he

end
end

/-- Scanned in any order, the table gives the only region that holds the address. -/
theorem regions_laid_out (mem : Memory) (podId nodeId : UInt16) (calls : List MrCall)
    (hroom : InRoom (Runs.run (mrStep mem) (.new podId nodeId) calls).2) :
    let run := Runs.run (mrStep mem) (.new podId nodeId) calls
    (∀ e ∈ run.2, e.baseUbAddr.deviceId = (mem e.device).deviceId ∧ 8 ∣ e.baseOffset.toNat) ∧
      (run.2.Pairwise fun e e' =>
        (mem e.device).deviceId = (mem e'.device).deviceId → Disjoint e.range e'.range) ∧
      (run.2.map fun e => e.handle).Nodup ∧
      (∀ handle e, run.1.lookup handle = some e → e ∈ run.2 ∧ e.handle = handle) ∧
      ∀ (t : MrTable) (addr : UbAddr), t.entries.entries.Perm run.1.entries.entries →
        (∀ handle e, run.1.lookup handle = some e → Holds e addr →
          t.lookupByAddr addr = some (e, addr.offset - e.baseOffset)) ∧
        ((∀ handle e, run.1.lookup handle = some e → ¬ Holds e addr) →
          t.lookupByAddr addr = none) := by
  intro run
  have hmeets : Runs.Meets (mrStep mem)
      (fun t log call => InRoom (log ++ (mrStep mem t call).2)) (.new podId nodeId) [] calls :=
    Runs.meets_of_log (fun _ _ => InRoom.of_append) hroom
  have hl : Layout mem run.2 run.1 :=
    Runs.run_invariant (I := fun t log => Layout mem log t)
      (fun t log call hl hroom => hl.mrStep call hroom) (layout_new mem podId nodeId) hmeets
  refine ⟨fun e he => ⟨hl.device e he, hl.aligned e he⟩, ?_, hl.nodup, hl.present, ?_⟩
  · apply hl.logged.disjoint.imp_of_mem
    intro e e' he he' hdisjoint hid
    rw [← hl.device e he, ← hl.device e' he'] at hid
    exact hdisjoint hid
  · intro t addr hperm
    have hlookup : ∀ handle, t.lookup handle = run.1.lookup handle := fun handle =>
      AList.perm_lookup hperm
    constructor
    · intro handle e he hold
      exact hl.lookupByAddr hlookup he hold
    · intro hnone
      exact hl.lookupByAddr_none hlookup hnone

theorem regions_laid_out_deregistered :
    let mem : Memory := fun r =>
      if r = 0 then ⟨.memory, 0, List.replicate 64 0⟩ else ⟨.npu, 1, List.replicate 8 0⟩
    let calls : List MrCall :=
      [.register ⟨0, 13, .read⟩, .register ⟨1, 8, .read⟩, .deregister 1, .register ⟨0, 16, .read⟩]
    let run := Runs.run (mrStep mem) (.new 1 1) calls
    (run.2.map bytesOf = [(0, 13), (0, 8), (16, 16)]) ∧
      run.2.Pairwise fun e e' =>
        (mem e.device).deviceId = (mem e'.device).deviceId → Disjoint e.range e'.range := by
  intro mem calls run
  have hroom : InRoom run.2 := by
    constructor
    · decide
    · intro id
      have hsum : (run.2.map fun e => roundUp e.len.toNat).sum = 40 := by decide
      have hle : alignedTotal id run.2 ≤ (run.2.map fun e => roundUp e.len.toNat).sum :=
        (List.filter_sublist.map _).sum_le_sum (by simp)
      omega
  exact ⟨by decide, (regions_laid_out mem 1 1 calls hroom).2.1⟩

end UniBus.DataPlane
