import UniBus.DataPlane.Isolation
import UniBus.Foundations.Checked
import UniBus.Foundations.Ranges
import UniBus.Foundations.Rounding
import UniBus.Foundations.Runs

/-!
# Registered regions

Offsets are handed out per device id, bounds are checked against the device a
region was registered with. The two agree as long as what has been registered
under the id leaves room on that device, and then every byte of every region
can be read, locally by address and remotely by handle.
-/
namespace UniBus.DataPlane

open Ranges (Packed span)
open Runs (Justified)

structure Registration where
  device : DeviceRef
  len : UInt64
  perms : MrPerms
  deriving DecidableEq, Repr

/-- A call that is refused leaves the table as it is. -/
def registerCall (mem : Memory) (t : MrTable) (c : Registration) : MrTable :=
  match t.register mem c.device c.len c.perms with
  | .ok (t, _) => t
  | .error _ => t

def registerAll (mem : Memory) (t : MrTable) (calls : List Registration) : MrTable :=
  calls.foldl (registerCall mem) t

def Holds (e : MrEntry) (addr : UbAddr) : Prop :=
  addr.nodeId = e.baseUbAddr.nodeId ∧ addr.deviceId = e.baseUbAddr.deviceId ∧
    addr.offset.toNat ∈ e.range

/-- One byte can be read at the address, by the local verb and by a request that
names the region. -/
structure Readable (h : Host) (e : MrEntry) (addr : UbAddr) : Prop where
  ubReadSync : ∃ r, UniBus.ubReadSync h.mrTable h.memory addr 1 = .ok r
  readReq : ∀ ext payload, ext.mrHandle = e.handle → ext.ubAddr = addr → readLen payload = 1 →
    ∃ bytes, (handleReadReq h payload ext).result = .ok bytes

/-- Every region lies on its device, and every byte of it can be read if the
region is active and readable. -/
def Usable (h : Host) : Prop :=
  ∀ handle e, h.mrTable.lookup handle = some e →
    e.baseOffset.toNat + e.len.toNat ≤ (h.memory e.device).capacity ∧
      ((h.mrTable.cells handle).state = .active → e.perms.contains .read →
        ∀ addr, Holds e addr → Readable h e addr)

/-! ## The offset allocators -/

def roundUp (n : ℕ) : ℕ := (n + 7) / 8 * 8

/-- The bytes of the address space of a device id that calls have used up. -/
def registered (mem : Memory) (id : UInt16) (calls : List Registration) : ℕ :=
  ((calls.filter fun c => (mem c.device).deviceId = id).map fun c => roundUp c.len.toNat).sum

/-- The lengths registered before under the same device id leave room for the
region on the device of the call. -/
def LeavesRoom (mem : Memory) (before : List Registration) (c : Registration) : Prop :=
  c.len ≠ 0 →
    registered mem (mem c.device).deviceId before + c.len.toNat ≤ (mem c.device).capacity

def cursor (t : MrTable) (id : UInt16) : UInt64 := (t.offsetAllocators.lookup id).getD 0

/-- The device bytes of each region of a device id. -/
def rangesOf (t : MrTable) (id : UInt16) (handle : UInt32) : Option (ℕ × ℕ) :=
  (t.entries.lookup handle).bind fun e =>
    if e.baseUbAddr.deviceId = id then some (e.baseOffset.toNat, e.len.toNat) else none

theorem toNat_allocOffset {next : UInt64} (h : next.toNat + 7 < 2 ^ 64) (len : UInt64) :
    (MrTable.allocOffset next len 8).1.toNat = roundUp next.toNat := by
  have halign : (8 : UInt64).toNat = 2 ^ 3 := rfl
  have hroom : next.toNat + (8 : UInt64).toNat ≤ 2 ^ 64 := by
    rw [halign]
    omega
  exact Rounding.up_of_two_pow halign hroom

theorem registered_concat (mem : Memory) (id : UInt16) (calls : List Registration)
    (c : Registration) :
    registered mem id (calls ++ [c]) =
      registered mem id calls +
        if (mem c.device).deviceId = id then roundUp c.len.toNat else 0 := by
  unfold registered
  by_cases h : (mem c.device).deviceId = id <;> simp [h]

/-! ## One call -/

def newEntry (mem : Memory) (t : MrTable) (c : Registration) : MrEntry where
  handle := t.nextHandle
  device := c.device
  baseOffset := (MrTable.allocOffset (cursor t (mem c.device).deviceId) c.len 8).1
  len := c.len
  perms := c.perms
  baseUbAddr := UbAddr.new t.podId t.nodeId (mem c.device).deviceId
    (MrTable.allocOffset (cursor t (mem c.device).deviceId) c.len 8).1 0
  offset_baseUbAddr := UbAddr.offset_new _ _ _ _ _

section
variable {mem : Memory} {t : MrTable} {c : Registration}

theorem registerCall_of_len_eq_zero (h : c.len = 0) : registerCall mem t c = t := by
  simp [registerCall, MrTable.register, h]

theorem lookup_registerCall (h : c.len ≠ 0) (handle : UInt32) :
    (registerCall mem t c).lookup handle =
      if handle = t.nextHandle then some (newEntry mem t c) else t.lookup handle := by
  unfold registerCall MrTable.register
  rw [if_neg h]
  by_cases hh : handle = t.nextHandle
  · subst hh
    simp [MrTable.lookup, newEntry, cursor]
  · simp [MrTable.lookup, hh, AList.lookup_insert_ne hh]

theorem cursor_registerCall (h : c.len ≠ 0) (id : UInt16) :
    cursor (registerCall mem t c) id =
      if id = (mem c.device).deviceId then (newEntry mem t c).baseOffset + c.len
      else cursor t id := by
  unfold registerCall MrTable.register
  rw [if_neg h]
  by_cases hid : id = (mem c.device).deviceId
  · subst hid
    simp [cursor, newEntry, MrTable.allocOffset]
  · simp [cursor, hid, AList.lookup_insert_ne hid]

theorem rangesOf_registerCall (h : c.len ≠ 0) (id : UInt16) (handle : UInt32) :
    rangesOf (registerCall mem t c) id handle =
      if handle = t.nextHandle then
        if (mem c.device).deviceId = id then
          some ((newEntry mem t c).baseOffset.toNat, c.len.toNat)
        else none
      else rangesOf t id handle := by
  have hlookup : (registerCall mem t c).entries.lookup handle = _ := lookup_registerCall h handle
  rw [rangesOf, hlookup]
  by_cases hh : handle = t.nextHandle
  · simp [hh, newEntry]
  · simp [hh, rangesOf, MrTable.lookup]

/-- What calls that all found room have made of the table. -/
structure Laid (mem : Memory) (calls : List Registration) (t : MrTable) : Prop where
  cursor_eq : ∀ id, roundUp (cursor t id).toNat = registered mem id calls
  cursor_lt : ∀ id, (cursor t id).toNat < 2 ^ 63
  packed : ∀ id, Packed (rangesOf t id) (cursor t id).toNat
  handle_eq : ∀ handle e, t.lookup handle = some e → e.handle = handle
  fits : ∀ handle e, t.lookup handle = some e →
    e.baseOffset.toNat + e.len.toNat ≤ (mem e.device).capacity

theorem laid_new (mem : Memory) (podId nodeId : UInt16) :
    Laid mem [] (MrTable.new podId nodeId) := by
  have hcursor : ∀ id, cursor (MrTable.new podId nodeId) id = 0 := by
    intro id
    by_cases hid : id = 0
    · rw [hid, cursor, MrTable.new, AList.lookup_insert]
      rfl
    · rw [cursor, MrTable.new, AList.lookup_insert_ne hid]
      rfl
  have hnone : ∀ handle, (MrTable.new podId nodeId).lookup handle = none := by
    intro handle
    exact AList.lookup_empty handle
  constructor
  · intro id
    rw [hcursor]
    rfl
  · intro id
    rw [hcursor]
    decide
  · intro id
    exact Ranges.packed_empty
  · intro handle e he
    rw [hnone] at he
    cases he
  · intro handle e he
    rw [hnone] at he
    cases he

variable {calls : List Registration}

/-- The region of a call starts behind everything registered under its id. -/
theorem Laid.toNat_baseOffset (hl : Laid mem calls t) :
    (newEntry mem t c).baseOffset.toNat = registered mem (mem c.device).deviceId calls := by
  have hcursor := hl.cursor_lt (mem c.device).deviceId
  rw [newEntry, toNat_allocOffset (by omega), hl.cursor_eq]

theorem Laid.refused (hl : Laid mem calls t) (hlen : c.len = 0) :
    Laid mem (calls ++ [c]) (registerCall mem t c) := by
  have hzero : roundUp c.len.toNat = 0 := by
    rw [hlen]
    rfl
  rw [registerCall_of_len_eq_zero hlen]
  refine { hl with cursor_eq := ?_ }
  intro id
  rw [registered_concat, hl.cursor_eq, hzero, ite_self, Nat.add_zero]

/-- The ranges of an id stay packed below its cursor, which is at the end of the new
region. -/
theorem Laid.packed_registerCall (hl : Laid mem calls t) (hlen : c.len ≠ 0)
    (hnext : ((newEntry mem t c).baseOffset + c.len).toNat =
      (newEntry mem t c).baseOffset.toNat + c.len.toNat) (id : UInt16) :
    Packed (rangesOf (registerCall mem t c) id) (cursor (registerCall mem t c) id).toNat := by
  rw [cursor_registerCall hlen]
  by_cases h : id = (mem c.device).deviceId
  · subst h
    have hle : (cursor t (mem c.device).deviceId).toNat ≤ (newEntry mem t c).baseOffset.toNat := by
      rw [hl.toNat_baseOffset, ← hl.cursor_eq, roundUp]
      omega
    rw [if_pos rfl, hnext]
    apply ((hl.packed _).raise hle).take t.nextHandle
    · intro handle r hne hr
      rwa [rangesOf_registerCall hlen, if_neg hne] at hr
    · rw [rangesOf_registerCall hlen, if_pos rfl, if_pos rfl]
  · rw [if_neg h]
    apply (hl.packed id).of_le
    intro handle r hr
    rw [rangesOf_registerCall hlen] at hr
    split_ifs at hr with hh hid
    · exact absurd hid.symm h
    · exact hr

theorem Laid.concat (hl : Laid mem calls t) (hvec : (mem c.device).capacity < 2 ^ 63)
    (hroom : LeavesRoom mem calls c) : Laid mem (calls ++ [c]) (registerCall mem t c) := by
  by_cases hlen : c.len = 0
  · exact hl.refused hlen
  · have hbase := hl.toNat_baseOffset (c := c)
    have hfits := hroom hlen
    rw [← hbase] at hfits
    have hnext : ((newEntry mem t c).baseOffset + c.len).toNat =
        (newEntry mem t c).baseOffset.toNat + c.len.toNat := Checked.toNat_addU64 (by omega)
    constructor
    · intro id
      rw [cursor_registerCall hlen, registered_concat]
      by_cases h : id = (mem c.device).deviceId
      · subst h
        rw [if_pos rfl, if_pos rfl, hnext, hbase, ← hl.cursor_eq]
        simp only [roundUp]
        omega
      · rw [if_neg h, if_neg (Ne.symm h), hl.cursor_eq, Nat.add_zero]
    · intro id
      rw [cursor_registerCall hlen]
      split_ifs
      · rw [hnext]
        omega
      · exact hl.cursor_lt id
    · exact hl.packed_registerCall hlen hnext
    · intro handle e he
      rw [lookup_registerCall hlen] at he
      split_ifs at he with hh
      · cases he
        exact hh.symm
      · exact hl.handle_eq handle e he
    · intro handle e he
      rw [lookup_registerCall hlen] at he
      split_ifs at he with hh
      · cases he
        exact hfits
      · exact hl.fits handle e he

theorem laid_registerAll (podId nodeId : UInt16)
    (hvec : ∀ c ∈ calls, (mem c.device).capacity < 2 ^ 63)
    (hroom : Justified (LeavesRoom mem) calls) :
    Laid mem calls (registerAll mem (MrTable.new podId nodeId) calls) := by
  induction calls using List.reverseRecOn with
  | nil => exact laid_new mem podId nodeId
  | append_singleton calls c ih =>
    have hbefore : Justified (LeavesRoom mem) calls := by
      intro before c' after heq
      apply hroom before c' (after ++ [c])
      rw [heq, List.append_assoc, List.cons_append]
    have hl := ih (fun c' hc => hvec c' (List.mem_append_left _ hc)) hbefore
    rw [registerAll, List.foldl_append]
    exact hl.concat (hvec c (by simp)) (hroom calls c [] rfl)

/-! ## Reading -/

variable {e : MrEntry} {handle : UInt32} {addr : UbAddr}

theorem rangesOf_of_lookup (he : t.lookup handle = some e) :
    rangesOf t e.baseUbAddr.deviceId handle = some (e.baseOffset.toNat, e.len.toNat) := by
  rw [rangesOf, show t.entries.lookup handle = some e from he]
  simp

theorem Laid.end_lt (hl : Laid mem calls t) (he : t.lookup handle = some e) :
    e.baseOffset.toNat + e.len.toNat < 2 ^ 63 :=
  ((hl.packed _).below handle _ (rangesOf_of_lookup he)).trans_lt (hl.cursor_lt _)

theorem addrInRegion_iff (hend : e.baseOffset.toNat + e.len.toNat < 2 ^ 64) :
    MrTable.addrInRegion e.baseUbAddr e.len addr = true ↔ Holds e addr := by
  have hsum : (e.baseOffset + e.len).toNat = e.baseOffset.toNat + e.len.toNat :=
    Checked.toNat_addU64 hend
  rw [MrTable.addrInRegion, e.offset_baseUbAddr]
  simp only [Bool.and_eq_true, beq_iff_eq, decide_eq_true_eq, UInt64.le_iff_toNat_le,
    UInt64.lt_iff_toNat_lt, hsum]
  constructor
  · rintro ⟨⟨⟨hnode, hdev⟩, hle⟩, hlt⟩
    exact ⟨hnode.symm, hdev.symm, hle, hlt⟩
  · rintro ⟨hnode, hdev, hle, hlt⟩
    exact ⟨⟨⟨hnode.symm, hdev.symm⟩, hle⟩, hlt⟩

section
variable (hl : Laid mem calls t)
include hl

theorem Laid.addrInRegion_iff (he : t.lookup handle = some e) :
    MrTable.addrInRegion e.baseUbAddr e.len addr = true ↔ Holds e addr := by
  have hend := hl.end_lt he
  exact DataPlane.addrInRegion_iff (by omega)

theorem Laid.lookupByAddr (he : t.lookup handle = some e) (hold : Holds e addr) :
    t.lookupByAddr addr = some (e, addr.offset - e.baseOffset) := by
  apply MrTable.lookupByAddr_eq_some he ((hl.addrInRegion_iff he).mpr hold)
  intro handle' e' he' hin
  have hold' : Holds e' addr := (hl.addrInRegion_iff he').mp hin
  have hid : e'.baseUbAddr.deviceId = e.baseUbAddr.deviceId := hold'.2.1.symm.trans hold.2.1
  have hrange' := rangesOf_of_lookup he'
  rw [hid] at hrange'
  obtain rfl : handle' = handle :=
    (hl.packed _).eq_of_mem hrange' (rangesOf_of_lookup he) hold'.2.2 hold.2.2
  exact Option.some.inj (he'.symm.trans he)

theorem Laid.ubReadSync_isOk (he : t.lookup handle = some e) (hread : e.perms.contains .read)
    (hold : Holds e addr) :
    ∃ r, UniBus.ubReadSync t mem addr 1 = .ok r := by
  have hperms : e.checkPerms .readReq = .ok () := if_pos hread
  have hoffset : e.baseOffset + (addr.offset - e.baseOffset) = addr.offset := by
    rw [UInt64.add_comm, UInt64.sub_add_cancel]
  have hfit : addr.offset.toNat + 1 ≤ (mem e.device).capacity := by
    have hlt := hold.2.2.2
    have hfits := hl.fits handle e he
    omega
  unfold UniBus.ubReadSync resolveLocal
  rw [hl.lookupByAddr he hold]
  simp only [hperms, hoffset, Memory.read, Device.read_eq, if_pos hfit]
  exact ⟨_, rfl⟩

theorem Laid.usable (jettyTable : JettyTable) :
    Usable ⟨t, mem, jettyTable⟩ := by
  intro handle e he
  constructor
  · exact hl.fits handle e he
  · intro hactive hread addr hold
    constructor
    · exact hl.ubReadSync_isOk he hread hold
    · intro ext payload hhandle haddr hone
      have hperms : e.checkPerms .readReq = .ok () := if_pos hread
      have hext : t.lookup ext.mrHandle = some e := by
        rw [hhandle, hl.handle_eq handle e he]
        exact he
      have hinc : t.tryInflightInc e = some (t.inflightAdd e.handle 1) := by
        rw [← hl.handle_eq handle e he] at hactive
        exact if_neg (not_not.mpr hactive)
      have hacquire : acquire t ext.mrHandle .readReq = .ok (e, t.inflightAdd e.handle 1) := by
        simp only [acquire, hext, hinc, hperms]
      have hfit : (deviceOffset e ext.ubAddr).toNat + readLen payload ≤
          (mem e.device).capacity := by
        have hle := hold.2.2.1
        have hlt := hold.2.2.2
        have hfits := hl.fits handle e he
        rw [toNat_deviceOffset, haddr, hone, max_eq_right hle]
        omega
      rw [handleReadReq]
      simp only [hacquire, Memory.read, Device.read_eq, if_pos hfit]
      exact ⟨_, rfl⟩

theorem Laid.leavesRoom {jettyTable : JettyTable}
    (husable : Usable ⟨registerCall mem t c, mem, jettyTable⟩) : LeavesRoom mem calls c := by
  intro hlen
  have hnew : (registerCall mem t c).lookup t.nextHandle = some (newEntry mem t c) := by
    rw [lookup_registerCall hlen, if_pos rfl]
  rw [← hl.toNat_baseOffset]
  exact (husable t.nextHandle _ hnew).1

end

end

/-- Every region is usable, in every state on the way, exactly when every call
finds room for its region. -/
theorem registered_usable_iff (mem : Memory) (podId nodeId : UInt16) (jettyTable : JettyTable)
    (calls : List Registration) (hvec : ∀ c ∈ calls, (mem c.device).capacity < 2 ^ 63) :
    (∀ k, Usable ⟨registerAll mem (.new podId nodeId) (calls.take k), mem, jettyTable⟩) ↔
      Justified (LeavesRoom mem) calls := by
  constructor
  · intro husable
    have hprefix : ∀ k, Justified (LeavesRoom mem) (calls.take k) := by
      intro k
      induction k with
      | zero => exact Runs.justified_nil
      | succ k ih =>
        rcases Nat.lt_or_ge k calls.length with hk | hk
        · have htake : calls.take (k + 1) = calls.take k ++ [calls[k]] := by simp
          have hl : Laid mem (calls.take k) (registerAll mem (.new podId nodeId) (calls.take k)) :=
            laid_registerAll podId nodeId (fun c hc => hvec c (List.mem_of_mem_take hc)) ih
          have hafter := husable (k + 1)
          rw [htake, registerAll, List.foldl_append] at hafter
          rw [htake]
          exact ih.concat (hl.leavesRoom hafter)
        · rwa [List.take_of_length_le (by omega), ← List.take_of_length_le hk]
    rw [← calls.take_length]
    exact hprefix calls.length
  · intro hroom k
    have hprefix : Justified (LeavesRoom mem) (calls.take k) := by
      intro before c after heq
      apply hroom before c (after ++ calls.drop k)
      rw [← List.cons_append, ← List.append_assoc, ← heq, List.take_append_drop]
    have hvec' : ∀ c ∈ calls.take k, (mem c.device).capacity < 2 ^ 63 :=
      fun c hc => hvec c (List.mem_of_mem_take hc)
    exact (laid_registerAll podId nodeId hvec' hprefix).usable jettyTable

theorem registered_usable_iff_shared :
    let mem : Memory := fun r =>
      if r = 0 then ⟨.memory, 0, List.replicate 32 0⟩ else ⟨.npu, 1, List.replicate 8 0⟩
    let calls : List Registration := [⟨0, 13, .read⟩, ⟨1, 8, .read⟩, ⟨0, 16, .read⟩]
    Usable ⟨registerAll mem (.new 1 1) calls, mem, .new 1 4 4⟩ := by
  intro mem calls
  have hroom : Justified (LeavesRoom mem) calls := by
    have h₁ : LeavesRoom mem [] ⟨0, 13, .read⟩ := fun _ => by decide
    have h₂ : LeavesRoom mem [⟨0, 13, .read⟩] ⟨1, 8, .read⟩ := fun _ => by decide
    have h₃ : LeavesRoom mem [⟨0, 13, .read⟩, ⟨1, 8, .read⟩] ⟨0, 16, .read⟩ := fun _ => by decide
    exact ((Runs.justified_nil.concat h₁).concat h₂).concat h₃
  exact (registered_usable_iff mem 1 1 (.new 1 4 4) calls (by decide)).mpr hroom 3

/-- Two calls with a device of their own each, as large as the region: the second
region starts where its device ends. -/
theorem second_region_unreadable :
    let mem : Memory := fun _ => ⟨.memory, 0, List.replicate 64 0⟩
    let calls : List Registration := [⟨0, 64, .read⟩, ⟨1, 64, .read⟩]
    let t := registerAll mem (.new 1 1) calls
    (∀ c ∈ calls, c.len.toNat ≤ (mem c.device).capacity) ∧
      ∃ e, t.lookup 2 = some e ∧ (t.cells 2).state = .active ∧ e.perms.contains .read ∧
        (mem e.device).capacity < e.baseOffset.toNat + e.len.toNat ∧
        Holds e e.baseUbAddr ∧ ubReadSync t mem e.baseUbAddr 1 = .error .addrInvalid := by
  intro mem calls t
  constructor
  · decide
  · refine ⟨newEntry mem (registerAll mem (.new 1 1) [⟨0, 64, .read⟩]) ⟨1, 64, .read⟩, rfl, rfl,
      ?_, ?_, ⟨rfl, rfl, ?_⟩, ?_⟩
    · decide
    · decide
    · constructor <;> decide
    · decide

end UniBus.DataPlane
