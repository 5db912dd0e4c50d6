import UniBus.Control.MrSync

/-!
# Remote addresses

A bus address is resolved by the first cached region that holds it, in the order in
which the map happens to be iterated. The test compares node, device and offset, and
computes the end of a region modulo `2 ^ 64`. It does not compare the pod, and a region
that reaches the end of the offsets is never found.
-/
namespace UniBus.Control

def filled (msgs : List ControlMsg) : MrCacheTable := msgs.foldl receive .new

/-- It is the cache of a control plane that starts without one and gets the messages,
each from some peer at some time. -/
theorem mrCache_processAll (p : Plane) (hempty : p.mrCache = .new)
    (inputs : List (PeerTx × ℕ × ControlMsg)) :
    (inputs.foldl (fun p i => (p.processControlMessage i.1 i.2.1 i.2.2).1) p).mrCache =
      filled (inputs.map fun i => i.2.2) := by
  rw [filled, ← hempty]
  clear hempty
  induction inputs generalizing p with
  | nil => rfl
  | cons i inputs ih =>
    rw [List.foldl_cons, ih, List.map_cons, List.foldl_cons, mrCache_processControlMessage]

def subject : ControlMsg → Option (UInt16 × UInt32)
  | .mrPublish mr => some (mr.ownerNode, mr.mrHandle)
  | .mrRevoke revoke => some (revoke.ownerNode, revoke.mrHandle)
  | _ => none

def published : ControlMsg → Option MrCacheEntry
  | .mrPublish mr =>
    some ⟨mr.mrHandle, mr.ownerNode, mr.baseUbAddr, mr.len, mr.perms, mr.deviceKind⟩
  | _ => none

end UniBus.Control

namespace UniBus.MrCacheEntry

def key (e : MrCacheEntry) : UInt16 × UInt32 := (e.ownerNode, e.remoteMrHandle)

/-- The offset of the address lies in the region, on its node and device. -/
structure Reaches (e : MrCacheEntry) (a : UbAddr) : Prop where
  nodeId : e.baseUbAddr.nodeId = a.nodeId
  deviceId : e.baseUbAddr.deviceId = a.deviceId
  base_le : e.baseUbAddr.offset.toNat ≤ a.offset.toNat
  lt_end : a.offset.toNat < e.baseUbAddr.offset.toNat + e.len.toNat

/-- The address is one of the region. -/
def Covers (e : MrCacheEntry) (a : UbAddr) : Prop :=
  e.baseUbAddr.podId = a.podId ∧ e.Reaches a

/-- The region ends before the last offset. -/
def EndsBelow (e : MrCacheEntry) : Prop := e.baseUbAddr.offset.toNat + e.len.toNat < 2 ^ 64

/-- The test of the code, in exact arithmetic. -/
theorem addrInRegion_iff (e : MrCacheEntry) (a : UbAddr) :
    MrTable.addrInRegion e.baseUbAddr e.len a = true ↔ e.Reaches a ∧ e.EndsBelow := by
  have hsum : (e.baseUbAddr.offset + e.len).toNat =
      (e.baseUbAddr.offset.toNat + e.len.toNat) % 2 ^ 64 := UInt64.toNat_add _ _
  have hlen := e.len.toNat_lt
  have hbase := e.baseUbAddr.offset.toNat_lt
  simp only [MrTable.addrInRegion, Bool.and_eq_true, beq_iff_eq, decide_eq_true_eq,
    UInt64.le_iff_toNat_le, UInt64.lt_iff_toNat_lt, hsum, EndsBelow]
  constructor
  · rintro ⟨⟨⟨hnode, hdevice⟩, hle⟩, hlt⟩
    -- a sum that wraps is smaller than the base
    have hbelow : e.baseUbAddr.offset.toNat + e.len.toNat < 2 ^ 64 := by omega
    rw [Nat.mod_eq_of_lt hbelow] at hlt
    exact ⟨⟨hnode, hdevice, hle, hlt⟩, hbelow⟩
  · rintro ⟨⟨hnode, hdevice, hle, hlt⟩, hbelow⟩
    rw [Nat.mod_eq_of_lt hbelow]
    exact ⟨⟨⟨hnode, hdevice⟩, hle⟩, hlt⟩

end UniBus.MrCacheEntry

namespace UniBus.Control

/-- The last message about the region has published it as the entry says. -/
def Published (msgs : List ControlMsg) (e : MrCacheEntry) : Prop :=
  ∃ before msg after, msgs = before ++ msg :: after ∧ published msg = some e ∧
    ∀ later ∈ after, subject later ≠ some e.key

theorem subject_of_published {msg : ControlMsg} {e : MrCacheEntry}
    (h : published msg = some e) : subject msg = some e.key := by
  cases msg with
  | mrPublish mr =>
    cases h
    rfl
  | _ => cases h

theorem published_concat_iff {msgs : List ControlMsg} {msg : ControlMsg} {e : MrCacheEntry} :
    Published (msgs ++ [msg]) e ↔
      published msg = some e ∨ Published msgs e ∧ subject msg ≠ some e.key := by
  constructor
  · rintro ⟨before, first, after, hmsgs, hfirst, hafter⟩
    rcases Runs.concat_split hmsgs with ⟨rest, rfl, rfl⟩ | ⟨rfl, rfl, rfl⟩
    · refine Or.inr ⟨⟨before, first, rest, rfl, hfirst, ?_⟩, hafter msg (by simp)⟩
      intro later hlater
      exact hafter later (List.mem_append_left _ hlater)
    · exact Or.inl hfirst
  · rintro (hmsg | ⟨⟨before, first, after, rfl, hfirst, hafter⟩, hmsg⟩)
    · exact ⟨msgs, msg, [], rfl, hmsg, by simp⟩
    · refine ⟨before, first, after ++ [msg], by simp, hfirst, ?_⟩
      intro later hlater
      rcases List.mem_append.mp hlater with hlater | hlater
      · exact hafter later hlater
      · rw [List.mem_singleton.mp hlater]
        exact hmsg

theorem lookup_receive_of_ne {t : MrCacheTable} {msg : ControlMsg} {key : UInt16 × UInt32}
    (h : subject msg ≠ some key) : (receive t msg).entries.lookup key = t.entries.lookup key := by
  cases msg with
  | mrPublish mr => exact AList.lookup_insert_ne fun heq => h (congrArg some heq.symm)
  | mrRevoke revoke => exact AList.lookup_erase_ne fun heq => h (congrArg some heq.symm)
  | _ => rfl

theorem lookup_receive_of_subject {t : MrCacheTable} {msg : ControlMsg} {key : UInt16 × UInt32}
    (h : subject msg = some key) : (receive t msg).entries.lookup key = published msg := by
  cases msg with
  | mrPublish mr =>
    cases h
    exact AList.lookup_insert _
  | mrRevoke revoke =>
    cases h
    exact AList.lookup_erase _ _
  | _ => cases h

theorem lookup_filled_iff (msgs : List ControlMsg) (key : UInt16 × UInt32) (e : MrCacheEntry) :
    (filled msgs).entries.lookup key = some e ↔ e.key = key ∧ Published msgs e := by
  induction msgs using List.reverseRecOn with
  | nil =>
    constructor
    · intro h
      cases h
    · rintro ⟨-, before, msg, after, hmsgs, -⟩
      simp at hmsgs
  | append_singleton msgs msg ih =>
    have hfilled : filled (msgs ++ [msg]) = receive (filled msgs) msg := by
      rw [filled, List.foldl_append]
      rfl
    rw [hfilled, published_concat_iff]
    by_cases hsubject : subject msg = some key
    · rw [lookup_receive_of_subject hsubject]
      constructor
      · intro hmsg
        have hkey := subject_of_published hmsg
        rw [hsubject] at hkey
        exact ⟨(Option.some.inj hkey).symm, Or.inl hmsg⟩
      · rintro ⟨rfl, hmsg | ⟨-, hne⟩⟩
        · exact hmsg
        · exact absurd hsubject hne
    · rw [lookup_receive_of_ne hsubject, ih]
      constructor
      · rintro ⟨rfl, hpublished⟩
        exact ⟨rfl, Or.inr ⟨hpublished, hsubject⟩⟩
      · rintro ⟨rfl, hmsg | ⟨hpublished, -⟩⟩
        · exact absurd (subject_of_published hmsg) hsubject
        · exact ⟨rfl, hpublished⟩

/-! ## Resolution -/

/-- An address resolves to a published region that it is one of, and to nothing only if
there is none. -/
structure ResolvesExactly (msgs : List ControlMsg) (a : UbAddr) (found : Option MrCacheEntry) :
    Prop where
  sound : ∀ e, found = some e → Published msgs e ∧ e.Covers a
  complete : found = none → ∀ e, Published msgs e → ¬ e.Covers a

/-- The cache as a map that is iterated in some order. -/
def Iterates (msgs : List ControlMsg) (t : MrCacheTable) : Prop :=
  t.entries.entries.Perm (filled msgs).entries.entries

section
variable {msgs : List ControlMsg} {t : MrCacheTable} {a : UbAddr} {e : MrCacheEntry}

theorem Iterates.lookup_iff (h : Iterates msgs t) (key : UInt16 × UInt32) :
    t.entries.lookup key = some e ↔ e.key = key ∧ Published msgs e := by
  rw [AList.perm_lookup h, lookup_filled_iff]

/-- What is found is published and passes the test. -/
theorem Iterates.of_lookupByAddr (h : Iterates msgs t) (hfound : t.lookupByAddr a = some e) :
    Published msgs e ∧ e.Reaches a ∧ e.EndsBelow := by
  obtain ⟨⟨key, e'⟩, hfind, rfl⟩ := Option.map_eq_some_iff.mp hfound
  have hlookup : t.entries.lookup key = some e' :=
    AList.mem_lookup_iff.mpr (List.mem_of_find?_eq_some hfind)
  refine ⟨((h.lookup_iff key).mp hlookup).2, ?_⟩
  have htest := List.find?_some hfind
  exact (e'.addrInRegion_iff a).mp htest

/-- Nothing is found only if no published region passes the test. -/
theorem Iterates.not_of_lookupByAddr (h : Iterates msgs t) (hnone : t.lookupByAddr a = none)
    (hpublished : Published msgs e) : ¬ (e.Reaches a ∧ e.EndsBelow) := by
  rw [MrCacheTable.lookupByAddr, Option.map_eq_none_iff, List.find?_eq_none] at hnone
  have hlookup : t.entries.lookup e.key = some e := (h.lookup_iff e.key).mpr ⟨rfl, hpublished⟩
  have htest := hnone _ (AList.mem_lookup_iff.mp hlookup)
  rw [← e.addrInRegion_iff a]
  simpa using htest

theorem exists_iterates (hpublished : Published msgs e) (hreaches : e.Reaches a)
    (hends : e.EndsBelow) : ∃ t, Iterates msgs t ∧ t.lookupByAddr a = some e := by
  have hlookup : (filled msgs).entries.lookup e.key = some e :=
    (lookup_filled_iff msgs e.key e).mpr ⟨rfl, hpublished⟩
  have hmem := AList.mem_lookup_iff.mp hlookup
  have hperm := (List.perm_cons_erase hmem).symm
  have htest := (e.addrInRegion_iff a).mpr ⟨hreaches, hends⟩
  refine ⟨⟨⟨_, (List.perm_nodupKeys hperm).mpr (filled msgs).entries.nodupKeys⟩⟩, hperm, ?_⟩
  simp only [MrCacheTable.lookupByAddr, List.find?_cons, htest, Option.map_some]

end

/-- In every iteration order an address resolves exactly, just in case no published
region that ends below `2 ^ 64` and reaches it is in another pod, and one of the
regions it is of, if there is any, ends below `2 ^ 64`. -/
theorem resolution_exact_iff (msgs : List ControlMsg) (a : UbAddr) :
    (∀ t, Iterates msgs t → ResolvesExactly msgs a (t.lookupByAddr a)) ↔
      (∀ e, Published msgs e → e.Reaches a → e.EndsBelow → e.baseUbAddr.podId = a.podId) ∧
      ((∃ e, Published msgs e ∧ e.Covers a) →
        ∃ e, Published msgs e ∧ e.Covers a ∧ e.EndsBelow) := by
  constructor
  · intro hexact
    constructor
    · intro e hpublished hreaches hends
      obtain ⟨t, ht, hfound⟩ := exists_iterates hpublished hreaches hends
      exact ((hexact t ht).sound e hfound).2.1
    · rintro ⟨e, hpublished, hcovers⟩
      have hself : Iterates msgs (filled msgs) := List.Perm.refl _
      have hresolves := hexact _ hself
      cases hfound : (filled msgs).lookupByAddr a with
      | none => exact absurd hcovers (hresolves.complete hfound e hpublished)
      | some e' =>
        obtain ⟨hpublished', hcovers'⟩ := hresolves.sound e' hfound
        exact ⟨e', hpublished', hcovers', (hself.of_lookupByAddr hfound).2.2⟩
  · rintro ⟨hpods, hends⟩ t ht
    constructor
    · intro e hfound
      obtain ⟨hpublished, hreaches, hbelow⟩ := ht.of_lookupByAddr hfound
      exact ⟨hpublished, hpods e hpublished hreaches hbelow, hreaches⟩
    · intro hnone e hpublished hcovers
      obtain ⟨e', hpublished', hcovers', hbelow⟩ := hends ⟨e, hpublished, hcovers⟩
      exact ht.not_of_lookupByAddr hnone hpublished' ⟨hcovers'.2, hbelow⟩

/-- A region of pod 1, and one that reaches the end of the offsets. -/
def podRegion : MrPublishPayload := ⟨2, 1, .new 1 2 0 0 0, 4096, .read, .memory⟩

def lastRegion : MrPublishPayload := ⟨2, 2, .new 1 2 0 18446744073709551600 0, 16, .read, .memory⟩

/-- An address of pod 2 resolves to the region of pod 1, and the first address of the
last region to nothing. -/
theorem address_resolves_wrongly :
    (filled [.mrPublish podRegion]).lookupByAddr (.new 2 2 0 16 0) =
        published (.mrPublish podRegion) ∧
      ¬ ResolvesExactly [.mrPublish podRegion] (.new 2 2 0 16 0)
        ((filled [.mrPublish podRegion]).lookupByAddr (.new 2 2 0 16 0)) ∧
      (filled [.mrPublish lastRegion]).lookupByAddr lastRegion.baseUbAddr = none ∧
      ¬ ResolvesExactly [.mrPublish lastRegion] lastRegion.baseUbAddr
        ((filled [.mrPublish lastRegion]).lookupByAddr lastRegion.baseUbAddr) := by
  refine ⟨by decide +kernel, ?_, by decide +kernel, ?_⟩
  · intro h
    obtain ⟨-, hpod, -⟩ := h.sound ⟨1, 2, .new 1 2 0 0 0, 4096, .read, .memory⟩ (by decide +kernel)
    exact absurd hpod (by decide +kernel)
  · intro h
    have hpublished : Published [.mrPublish lastRegion]
        ⟨2, 2, lastRegion.baseUbAddr, 16, .read, .memory⟩ :=
      ⟨[], .mrPublish lastRegion, [], rfl, rfl, by simp⟩
    refine h.complete (by decide +kernel) _ hpublished ⟨rfl, rfl, rfl, Nat.le_refl _, ?_⟩
    exact Nat.lt_add_of_pos_right (by decide)

end UniBus.Control
