import UniBus.Control.MrSync

/-!
# The lives of regions

A region goes from the taking of its handle through its listing and its revocation
to its removal, and one operation at a time is responsible for the next stage. The
steps of the operations are described by what they do to these lives and by what the
event they send tells the peers.
-/
namespace UniBus.Control

open Updates

/-- How far the region of a handle has come. -/
inductive Life
  | unseen
  | reserved (op : ℕ)
  | live
  /-- Revoked and still listed. -/
  | leaving (op : ℕ)
  | gone
  deriving DecidableEq

def Life.Seen : Life → Prop
  | unseen | reserved _ => False
  | live | leaving _ | gone => True

/-- What a peer should hold about a region. -/
def expected (life : UInt32 → Life) (info : UInt32 → MrCacheEntry) (handle : UInt32) :
    Option MrCacheEntry :=
  if life handle = .live then some (info handle) else none

namespace Owner

/-- The table and the operations follow the lives of the regions; `info` is what
there is to know about a region from the moment its handle is taken. -/
structure Traced (mem : Memory) (life : UInt32 → Life) (info : UInt32 → MrCacheEntry)
    (o : Owner) : Prop where
  active : ∀ handle, (o.table.cells handle).state = .active ↔ life handle = .live
  listed : ∀ handle, (o.table.entries.lookup handle).isSome ↔
    life handle = .live ∨ ∃ op, life handle = .leaving op
  entry : ∀ handle e, o.table.entries.lookup handle = some e →
    e.handle = handle ∧ info handle = cacheEntry mem o.table.nodeId e ∧
      e.baseUbAddr.nodeId = o.table.nodeId
  reserved : ∀ op e, o.operation op = .reserved e → life e.handle = .reserved op ∧
    info e.handle = cacheEntry mem o.table.nodeId e ∧ e.baseUbAddr.nodeId = o.table.nodeId
  inserted : ∀ op e, o.operation op = .inserted e → (life e.handle).Seen ∧
    info e.handle = cacheEntry mem o.table.nodeId e
  leaving : ∀ op handle, (o.operation op).leaving = some handle ↔ life handle = .leaving op
  unseen : ∀ handle, o.table.nextHandle ≤ handle → life handle = .unseen

/-- An event about the region is still to be sent. -/
def Unsent (o : Owner) (handle : UInt32) : Prop :=
  ∃ op, (o.operation op).unsent = some handle

/-- The Revoke event of the region has been sent. -/
def Withdrawn (o : Owner) (life : UInt32 → Life) (handle : UInt32) : Prop :=
  life handle ≠ .live ∧ ∀ op, o.operation op ≠ .revoked handle

/-- What a step of an operation does to the regions, with the event it sends. -/
structure Moves (o o' : Owner) (life life' : UInt32 → Life) (info info' : UInt32 → MrCacheEntry)
    (posted : Option (Update UInt32 MrCacheEntry)) : Prop where
  grows : ∀ handle, (life handle).Seen → (life' handle).Seen ∧ info' handle = info handle
  stable : ∀ handle, (life handle).Seen → o.Withdrawn life handle → o'.Withdrawn life' handle
  seen : ∀ u ∈ posted, (life' u.key).Seen ∧ (u.value = none ∨ u.value = some (info' u.key))
  set : ∀ u ∈ posted, u.value ≠ none → ¬ o.Withdrawn life u.key
  unset : ∀ u ∈ posted, u.value = none → o'.Withdrawn life' u.key
  settles : ∀ handle, o'.Unsent handle ∨
    (¬ o.Unsent handle ∧ (∀ u ∈ posted, u.key ≠ handle) ∧
      expected life' info' handle = expected life info handle) ∨
    ∃ u, posted = some u ∧ u.key = handle ∧ u.value = expected life' info' handle

section Traced
variable {mem : Memory} {life : UInt32 → Life} {info : UInt32 → MrCacheEntry} {o : Owner}
  {op : ℕ} {table : MrTable} {operation : MrOperation}

@[simp] theorem operation_proceed_self :
    (o.proceed op table operation).operation op = operation := Function.update_self ..

theorem operation_proceed_ne {op' : ℕ} (h : op' ≠ op) :
    (o.proceed op table operation).operation op' = o.operation op' :=
  Function.update_of_ne h ..

section
variable (h : o.Traced mem life info)
include h

theorem Traced.keep (hentries : table.entries = o.table.entries)
    (hcells : ∀ handle, (table.cells handle).state = .active ↔
      (o.table.cells handle).state = .active) (hnext : table.nextHandle = o.table.nextHandle)
    (hnode : table.nodeId = o.table.nodeId)
    (hleaving : operation.leaving = (o.operation op).leaving)
    (hreserved : ∀ e, operation ≠ .reserved e) (hinserted : ∀ e, operation ≠ .inserted e) :
    (o.proceed op table operation).Traced mem life info where
  active handle := (hcells handle).trans (h.active handle)
  listed handle := by
    rw [proceed, hentries]
    exact h.listed handle
  entry handle e := by
    rw [proceed, hentries, hnode]
    exact h.entry handle e
  reserved op' e he := by
    by_cases hop : op' = op
    · subst hop
      rw [operation_proceed_self] at he
      exact absurd he (hreserved e)
    · rw [operation_proceed_ne hop] at he
      rw [proceed, hnode]
      exact h.reserved op' e he
  inserted op' e he := by
    by_cases hop : op' = op
    · subst hop
      rw [operation_proceed_self] at he
      exact absurd he (hinserted e)
    · rw [operation_proceed_ne hop] at he
      rw [proceed, hnode]
      exact h.inserted op' e he
  leaving op' handle := by
    by_cases hop : op' = op
    · subst hop
      rw [operation_proceed_self, hleaving]
      exact h.leaving op' handle
    · rw [operation_proceed_ne hop]
      exact h.leaving op' handle
  unseen handle hle := by
    rw [proceed, hnext] at hle
    exact h.unseen handle hle

/-- A step that takes the region of one handle to the next stage of its life. -/
theorem Traced.change {handle : UInt32} {stage : Life} {info' : UInt32 → MrCacheEntry}
    (hnode : table.nodeId = o.table.nodeId)
    (hothers : ∀ handle' ≠ handle, info' handle' = info handle' ∧
      table.entries.lookup handle' = o.table.entries.lookup handle' ∧
      table.cells handle' = o.table.cells handle')
    (hnext : ∀ handle', table.nextHandle ≤ handle' →
      handle' ≠ handle ∧ o.table.nextHandle ≤ handle')
    (hactive : (table.cells handle).state = .active ↔ stage = .live)
    (hlisted : (table.entries.lookup handle).isSome ↔ stage = .live ∨ ∃ op, stage = .leaving op)
    (hentry : ∀ e, table.entries.lookup handle = some e → e.handle = handle ∧
      info' handle = cacheEntry mem o.table.nodeId e ∧ e.baseUbAddr.nodeId = o.table.nodeId)
    (hseen : (life handle).Seen → stage.Seen ∧ info' handle = info handle)
    (hown : ∀ op' ≠ op, life handle ≠ .reserved op' ∧ life handle ≠ .leaving op' ∧
      stage ≠ .leaving op')
    (hreserved : ∀ e, operation = .reserved e → e.handle = handle ∧ stage = .reserved op ∧
      info' handle = cacheEntry mem o.table.nodeId e ∧ e.baseUbAddr.nodeId = o.table.nodeId)
    (hinserted : ∀ e, operation = .inserted e → e.handle = handle ∧ stage.Seen ∧
      info' handle = cacheEntry mem o.table.nodeId e)
    (hleaving : ∀ handle', operation.leaving = some handle' ↔
      handle' = handle ∧ stage = .leaving op)
    (hleft : ∀ handle' ≠ handle, (o.operation op).leaving ≠ some handle') :
    (o.proceed op table operation).Traced mem (Function.update life handle stage) info' where
  active handle' := by
    by_cases hh : handle' = handle
    · subst hh
      rw [Function.update_self]
      exact hactive
    · rw [Function.update_of_ne hh, proceed, (hothers handle' hh).2.2]
      exact h.active handle'
  listed handle' := by
    by_cases hh : handle' = handle
    · subst hh
      rw [Function.update_self]
      exact hlisted
    · rw [Function.update_of_ne hh, proceed, (hothers handle' hh).2.1]
      exact h.listed handle'
  entry handle' e he := by
    rw [proceed, hnode]
    by_cases hh : handle' = handle
    · subst hh
      exact hentry e he
    · rw [proceed, (hothers handle' hh).2.1] at he
      rw [(hothers handle' hh).1]
      exact h.entry handle' e he
  reserved op' e he := by
    rw [proceed, hnode]
    by_cases hop : op' = op
    · subst hop
      rw [operation_proceed_self] at he
      obtain ⟨rfl, hstage, hrest⟩ := hreserved e he
      exact ⟨by rw [Function.update_self, hstage], hrest⟩
    · rw [operation_proceed_ne hop] at he
      have hold := h.reserved op' e he
      have hh : e.handle ≠ handle := fun heq => (hown op' hop).1 (heq ▸ hold.1)
      rw [Function.update_of_ne hh, (hothers _ hh).1]
      exact hold
  inserted op' e he := by
    rw [proceed, hnode]
    by_cases hop : op' = op
    · subst hop
      rw [operation_proceed_self] at he
      obtain ⟨rfl, hstage, hinfo⟩ := hinserted e he
      exact ⟨by rwa [Function.update_self], hinfo⟩
    · rw [operation_proceed_ne hop] at he
      have hold := h.inserted op' e he
      by_cases hh : e.handle = handle
      · subst hh
        rw [Function.update_self, (hseen hold.1).2]
        exact ⟨(hseen hold.1).1, hold.2⟩
      · rw [Function.update_of_ne hh, (hothers _ hh).1]
        exact hold
  leaving op' handle' := by
    have hold := h.leaving op' handle'
    by_cases hop : op' = op
    · subst hop
      rw [operation_proceed_self, hleaving]
      by_cases hh : handle' = handle
      · simp [hh]
      · rw [Function.update_of_ne hh, ← hold]
        simp [hh, hleft handle' hh]
    · rw [operation_proceed_ne hop, hold]
      by_cases hh : handle' = handle
      · subst hh
        rw [Function.update_self]
        exact iff_of_false (hown op' hop).2.1 (hown op' hop).2.2
      · rw [Function.update_of_ne hh]
  unseen handle' hle := by
    obtain ⟨hh, hle⟩ := hnext handle' hle
    rw [Function.update_of_ne hh]
    exact h.unseen handle' hle

/-- A handle whose region is past the first stage has been taken. -/
theorem Traced.ne_of_le {handle handle' : UInt32} (hlife : life handle ≠ .unseen)
    (hle : o.table.nextHandle ≤ handle') : handle' ≠ handle := by
  rintro rfl
  exact hlife (h.unseen _ hle)

theorem Traced.take (hop : (o.operation op).leaving = none)
    (hlast : o.table.nextHandle ≠ 0xFFFFFFFF) (device : DeviceRef) (offset len : UInt64)
    (perms : MrPerms) :
    let taken := o.table.takeHandle mem device offset len perms
    (o.proceed op taken.1 (.reserved taken.2)).Traced mem
      (Function.update life o.table.nextHandle (.reserved op))
      (Function.update info o.table.nextHandle (cacheEntry mem o.table.nodeId taken.2)) := by
  intro taken
  have hunseen : life o.table.nextHandle = .unseen := h.unseen _ (UInt32.le_refl _)
  have hnone : o.table.entries.lookup o.table.nextHandle = none := by
    have := h.listed o.table.nextHandle
    simpa [hunseen] using this
  apply h.change
  case hnode => rfl
  case hothers => exact fun handle' hh => ⟨Function.update_of_ne hh .., rfl, rfl⟩
  case hnext =>
    intro handle' hle
    change o.table.nextHandle + 1 ≤ handle' at hle
    have hne : o.table.nextHandle.toNat ≠ 4294967295 := fun heq =>
      hlast (UInt32.toNat_inj.mp heq)
    have hbound := o.table.nextHandle.toNat_lt
    rw [UInt32.le_iff_toNat_le, UInt32.toNat_add] at hle
    have hlt : o.table.nextHandle.toNat < handle'.toNat := by
      simp at hle
      omega
    exact ⟨fun heq => by simp [heq] at hlt, UInt32.le_iff_toNat_le.mpr hlt.le⟩
  case hactive => simpa [taken, hunseen] using h.active o.table.nextHandle
  case hlisted => simpa [taken] using hnone
  case hentry =>
    intro e he
    rw [MrTable.entries_takeHandle, hnone] at he
    cases he
  case hseen => simp [hunseen, Life.Seen]
  case hown => simp [hunseen]
  case hreserved =>
    intro e he
    cases he
    exact ⟨rfl, rfl, Function.update_self .., UbAddr.nodeId_new ..⟩
  case hinserted => simp
  case hleaving => simp [MrOperation.leaving]
  case hleft => simp [hop]

theorem Traced.insert {e : MrEntry} (hop : o.operation op = .reserved e) :
    (o.proceed op (o.table.insertEntry e) (.inserted e)).Traced mem
      (Function.update life e.handle .live) info := by
  obtain ⟨hlife, hinfo, hnode⟩ := h.reserved op e hop
  apply h.change
  case hnode => rfl
  case hothers =>
    exact fun handle' hh => ⟨rfl, AList.lookup_insert_ne hh, Function.update_of_ne hh ..⟩
  case hnext => exact fun handle' hle => ⟨h.ne_of_le (by simp [hlife]) hle, hle⟩
  case hactive => simp [MrTable.insertEntry]
  case hlisted => simp [MrTable.insertEntry]
  case hentry =>
    intro e' he
    rw [MrTable.insertEntry, AList.lookup_insert] at he
    cases he
    exact ⟨rfl, hinfo, hnode⟩
  case hseen => simp [hlife, Life.Seen]
  case hown => exact fun op' hop' => ⟨by simpa [hlife] using Ne.symm hop', by simp [hlife], by simp⟩
  case hreserved => simp
  case hinserted =>
    intro e' he
    cases he
    exact ⟨rfl, trivial, hinfo⟩
  case hleaving => simp [MrOperation.leaving]
  case hleft => simp [hop, MrOperation.leaving]

theorem Traced.revoke {handle : UInt32} (hactive : (o.table.cells handle).state = .active)
    (hop : (o.operation op).leaving = none) (hleaving : operation.leaving = some handle) :
    (o.proceed op (o.table.setState handle .revoking) operation).Traced mem
      (Function.update life handle (.leaving op)) info := by
  have hlive : life handle = .live := (h.active handle).mp hactive
  apply h.change
  case hnode => rfl
  case hothers => exact fun handle' hh => ⟨rfl, rfl, Function.update_of_ne hh ..⟩
  case hnext => exact fun handle' hle => ⟨h.ne_of_le (by simp [hlive]) hle, hle⟩
  case hactive => simp [MrTable.setState]
  case hlisted => simpa [hlive] using h.listed handle
  case hentry => exact h.entry handle
  case hseen => exact fun _ => ⟨trivial, rfl⟩
  case hown => exact fun op' hop' => ⟨by simp [hlive], by simp [hlive], by simpa using Ne.symm hop'⟩
  case hreserved =>
    intro e he
    rw [he] at hleaving
    cases hleaving
  case hinserted =>
    intro e he
    rw [he] at hleaving
    cases hleaving
  case hleaving => simp [hleaving, eq_comm]
  case hleft => simp [hop]

theorem Traced.remove {handle : UInt32} (hop : (o.operation op).leaving = some handle) :
    (o.proceed op (o.table.removeEntry handle) .idle).Traced mem
      (Function.update life handle .gone) info := by
  have hlife : life handle = .leaving op := (h.leaving op handle).mp hop
  apply h.change
  case hnode => rfl
  case hothers => exact fun handle' hh => ⟨rfl, AList.lookup_erase_ne hh, rfl⟩
  case hnext => exact fun handle' hle => ⟨h.ne_of_le (by simp [hlife]) hle, hle⟩
  case hactive => simpa [hlife] using h.active handle
  case hlisted => simp [MrTable.removeEntry]
  case hentry => simp [MrTable.removeEntry]
  case hseen => exact fun _ => ⟨trivial, rfl⟩
  case hown => exact fun op' hop' => ⟨by simp [hlife], by simpa [hlife] using Ne.symm hop', by simp⟩
  case hreserved => simp
  case hinserted => simp
  case hleaving => simp [MrOperation.leaving]
  case hleft => simpa [hop] using fun handle' hh => Ne.symm hh

end

end Traced

section Moves
variable {mem : Memory} {life life' : UInt32 → Life} {info info' : UInt32 → MrCacheEntry}
  {o : Owner} {op : ℕ} {table : MrTable} {operation : MrOperation}
  {posted : Option (Update UInt32 MrCacheEntry)} {handle : UInt32}

theorem Unsent.proceed (h : o.Unsent handle) (hop : (o.operation op).unsent ≠ some handle) :
    (o.proceed op table operation).Unsent handle := by
  obtain ⟨op', hop'⟩ := h
  have hne : op' ≠ op := by
    rintro rfl
    exact hop hop'
  exact ⟨op', by rwa [operation_proceed_ne hne]⟩

theorem unsent_proceed_self (h : operation.unsent = some handle) :
    (o.proceed op table operation).Unsent handle := ⟨op, by rwa [operation_proceed_self]⟩

theorem Withdrawn.proceed (h : o.Withdrawn life handle) (hlife : life' handle ≠ .live)
    (hoperation : operation ≠ .revoked handle) :
    (o.proceed op table operation).Withdrawn life' handle := by
  refine ⟨hlife, fun op' => ?_⟩
  by_cases hop : op' = op
  · subst hop
    rwa [operation_proceed_self]
  · rw [operation_proceed_ne hop]
    exact h.2 op'

theorem Moves.refl (o : Owner) (life : UInt32 → Life) (info : UInt32 → MrCacheEntry) :
    o.Moves o life life info info none where
  grows _ hseen := ⟨hseen, rfl⟩
  stable _ _ hwithdrawn := hwithdrawn
  seen := by simp
  set := by simp
  unset := by simp
  settles handle := by
    by_cases hunsent : o.Unsent handle
    · exact Or.inl hunsent
    · exact Or.inr (Or.inl ⟨hunsent, by simp, rfl⟩)

theorem Moves.of_proceed (handle : UInt32)
    (hothers : ∀ handle' ≠ handle, life' handle' = life handle' ∧ info' handle' = info handle')
    (hseen : (life handle).Seen → (life' handle).Seen ∧ info' handle = info handle)
    (hlive : (life handle).Seen → life handle ≠ .live → life' handle ≠ .live)
    (hop : ∀ handle' ≠ handle, (o.operation op).unsent ≠ some handle')
    (hoperation : ∀ handle', operation = .revoked handle' →
      handle' = handle ∧ life handle = .live)
    (hposted : ∀ u ∈ posted, u.key = handle ∧ (life' handle).Seen ∧
      (u.value = none ∨ u.value = some (info' handle)))
    (hset : ∀ u ∈ posted, u.value ≠ none → ¬ o.Withdrawn life handle)
    (hunset : ∀ u ∈ posted, u.value = none →
      (o.proceed op table operation).Withdrawn life' handle)
    (hsettles : (o.proceed op table operation).Unsent handle ∨
      (¬ o.Unsent handle ∧ posted = none ∧
        expected life' info' handle = expected life info handle) ∨
      ∃ u, posted = some u ∧ u.key = handle ∧ u.value = expected life' info' handle) :
    o.Moves (o.proceed op table operation) life life' info info' posted where
  grows handle' hold := by
    by_cases hh : handle' = handle
    · subst hh
      exact hseen hold
    · rw [(hothers handle' hh).1]
      exact ⟨hold, (hothers handle' hh).2⟩
  stable handle' hold hwithdrawn := by
    by_cases hh : handle' = handle
    · subst hh
      exact hwithdrawn.proceed (hlive hold hwithdrawn.1) fun heq =>
        hwithdrawn.1 (hoperation _ heq).2
    · refine hwithdrawn.proceed ?_ fun heq => hh (hoperation _ heq).1
      rw [(hothers handle' hh).1]
      exact hwithdrawn.1
  seen u hu := by
    obtain ⟨hkey, hrest⟩ := hposted u hu
    rw [hkey]
    exact hrest
  set u hu := by
    rw [(hposted u hu).1]
    exact hset u hu
  unset u hu := by
    rw [(hposted u hu).1]
    exact hunset u hu
  settles handle' := by
    by_cases hh : handle' = handle
    · subst hh
      refine hsettles.imp_right (Or.imp_left ?_)
      rintro ⟨hunsent, rfl, hexpected⟩
      exact ⟨hunsent, by simp, hexpected⟩
    · by_cases hunsent : o.Unsent handle'
      · exact Or.inl (hunsent.proceed (hop handle' hh))
      · refine Or.inr (Or.inl ⟨hunsent, fun u hu hkey => hh ?_, ?_⟩)
        · rw [← hkey, (hposted u hu).1]
        · rw [expected, expected, (hothers handle' hh).1, (hothers handle' hh).2]

theorem Moves.silent (handle : UInt32)
    (hothers : ∀ handle' ≠ handle, life' handle' = life handle' ∧ info' handle' = info handle')
    (hseen : (life handle).Seen → (life' handle).Seen ∧ info' handle = info handle)
    (hlive : life' handle = .live ↔ life handle = .live)
    (hinfo : life handle = .live → info' handle = info handle)
    (hop : (o.operation op).unsent = none) (hoperation : operation.unsent = none) :
    o.Moves (o.proceed op table operation) life life' info info' none := by
  apply Moves.of_proceed handle hothers hseen
  case hlive => exact fun _ hnot => hnot ∘ hlive.mp
  case hop => simp [hop]
  case hoperation =>
    rintro handle' rfl
    cases hoperation
  case hposted => simp
  case hset => simp
  case hunset => simp
  case hsettles =>
    by_cases hunsent : o.Unsent handle
    · exact Or.inl (hunsent.proceed (by simp [hop]))
    · refine Or.inr (Or.inl ⟨hunsent, rfl, ?_⟩)
      rw [expected, expected]
      by_cases h : life handle = .live
      · rw [if_pos h, if_pos (hlive.mpr h), hinfo h]
      · rw [if_neg h, if_neg (h ∘ hlive.mp)]

/-- What peers learn from an event. -/
def postedOf (ownerNode : UInt16) (event : Option MrPublishEvent) :
    Option (Update UInt32 MrCacheEntry) :=
  event.bind fun event => updateOf ownerNode (eventMessage event)

/-- Handles are not used up, and a Publish event is sent before the Revoke event of
the region is. -/
def Orderly (o : Owner) (op : ℕ) : OwnerCall → Prop
  | .proceed =>
    match o.operation op with
    | .allocated _ _ _ _ => o.table.nextHandle ≠ 0xFFFFFFFF
    | .inserted e => (o.table.cells e.handle).state = .active ∨
        ∃ op', o.operation op' = .revoked e.handle
    | _ => True
  | _ => True

theorem postedOf_publish (o : Owner) (mem : Memory) (e : MrEntry) :
    postedOf o.table.nodeId (some (.publish (o.publishInfo mem e))) =
      some (.set e.handle (cacheEntry mem o.table.nodeId e)) := by
  simp [postedOf, eventMessage, updateOf, publishInfo, cacheEntry]

theorem postedOf_revoke (ownerNode : UInt16) (handle : UInt32) :
    postedOf ownerNode (some (.revoke ownerNode handle)) = some (.unset handle) := by
  simp [postedOf, eventMessage, updateOf]

theorem Traced.publish {e : MrEntry} (h : o.Traced mem life info)
    (hop : o.operation op = .inserted e)
    (horderly : (o.table.cells e.handle).state = .active ∨
      ∃ op', o.operation op' = .revoked e.handle) :
    o.Moves (o.proceed op o.table .idle) life life info info
      (some (.set e.handle (cacheEntry mem o.table.nodeId e))) := by
  obtain ⟨hseen, hinfo⟩ := h.inserted op e hop
  apply Moves.of_proceed e.handle (fun _ _ => ⟨rfl, rfl⟩) fun hold => ⟨hold, rfl⟩
  case hlive => exact fun _ hnot => hnot
  case hop => simpa [hop, MrOperation.unsent] using fun handle' hh => Ne.symm hh
  case hoperation => simp
  case hposted => simp [Update.key, Update.value, hseen, hinfo]
  case hset =>
    intro u _ _ hwithdrawn
    rcases horderly with hactive | ⟨op', hrevoked⟩
    · exact hwithdrawn.1 ((h.active _).mp hactive)
    · exact hwithdrawn.2 op' hrevoked
  case hunset => simp [Update.value]
  case hsettles =>
    rcases horderly with hactive | ⟨op', hrevoked⟩
    · refine Or.inr (Or.inr ⟨_, rfl, rfl, ?_⟩)
      rw [expected, if_pos ((h.active _).mp hactive), hinfo]
      rfl
    · left
      have hne : op' ≠ op := by
        rintro rfl
        rw [hop] at hrevoked
        cases hrevoked
      exact ⟨op', by rw [operation_proceed_ne hne, hrevoked]; rfl⟩

theorem Traced.post (h : o.Traced mem life info) (hop : o.operation op = .revoked handle) :
    o.Moves (o.proceed op o.table (.waiting handle)) life life info info
      (some (.unset handle)) := by
  have hlife : life handle = .leaving op := (h.leaving op handle).mp (by rw [hop]; rfl)
  apply Moves.of_proceed handle (fun _ _ => ⟨rfl, rfl⟩) fun hold => ⟨hold, rfl⟩
  case hlive => exact fun _ hnot => hnot
  case hop => simpa [hop, MrOperation.unsent] using fun handle' hh => Ne.symm hh
  case hoperation => simp
  case hposted => simp [Update.key, Update.value, hlife, Life.Seen]
  case hset => simp [Update.value]
  case hunset =>
    refine fun _ _ _ => ⟨by simp [hlife], fun op' hrevoked => ?_⟩
    -- only one operation has revoked the region
    have hne : op' ≠ op := by
      rintro rfl
      rw [operation_proceed_self] at hrevoked
      cases hrevoked
    rw [operation_proceed_ne hne] at hrevoked
    have hother := (h.leaving op' handle).mp (by rw [hrevoked]; rfl)
    rw [hlife] at hother
    cases hother
    exact hne rfl
  case hsettles =>
    refine Or.inr (Or.inr ⟨_, rfl, rfl, ?_⟩)
    simp [expected, hlife, Update.value]

/-- A region is revoked, and its event is sent at once or still to be sent. -/
theorem Traced.moves_revoke (h : o.Traced mem life info) (hlive : life handle = .live)
    (hop : (o.operation op).unsent = none)
    (hoperation : operation = .revoked handle ∧ posted = none ∨
      operation = .removing handle ∧ posted = some (.unset handle)) :
    o.Moves (o.proceed op table operation) life (Function.update life handle (.leaving op))
      info info posted := by
  have hleaving : Function.update life handle (.leaving op) handle = .leaving op :=
    Function.update_self ..
  apply Moves.of_proceed handle
  case hothers => exact fun handle' hh => ⟨Function.update_of_ne hh .., rfl⟩
  case hseen => simp [Life.Seen]
  case hlive => simp
  case hop => simp [hop]
  case hoperation => rcases hoperation with ⟨rfl, -⟩ | ⟨rfl, -⟩ <;> simp [hlive]
  case hposted =>
    rcases hoperation with ⟨-, rfl⟩ | ⟨-, rfl⟩ <;>
      simp [Update.key, Update.value, Life.Seen]
  case hset => rcases hoperation with ⟨-, rfl⟩ | ⟨-, rfl⟩ <;> simp [Update.value]
  case hunset =>
    intro u hu _
    rcases hoperation with ⟨-, rfl⟩ | ⟨rfl, -⟩
    · cases hu
    · refine ⟨by simp, fun op' hrevoked => ?_⟩
      by_cases hne : op' = op
      · subst hne
        rw [operation_proceed_self] at hrevoked
        cases hrevoked
      · rw [operation_proceed_ne hne] at hrevoked
        have hother := (h.leaving op' handle).mp (by rw [hrevoked]; rfl)
        rw [hlive] at hother
        cases hother
  case hsettles =>
    rcases hoperation with ⟨rfl, -⟩ | ⟨-, rfl⟩
    · exact Or.inl (unsent_proceed_self rfl)
    · exact Or.inr (Or.inr ⟨_, rfl, rfl, by simp [expected, Update.value]⟩)

/-- A region is listed, and its event is still to be sent. -/
theorem Traced.moves_insert {e : MrEntry} (h : o.Traced mem life info)
    (hop : o.operation op = .reserved e) :
    o.Moves (o.proceed op table (.inserted e)) life (Function.update life e.handle .live)
      info info none := by
  have hlife := (h.reserved op e hop).1
  apply Moves.of_proceed e.handle
  case hothers => exact fun handle' hh => ⟨Function.update_of_ne hh .., rfl⟩
  case hseen => simp [hlife, Life.Seen]
  case hlive => simp [hlife, Life.Seen]
  case hop => simp [hop, MrOperation.unsent]
  case hoperation => simp
  case hposted => simp
  case hset => simp
  case hunset => simp
  case hsettles => exact Or.inl (unsent_proceed_self rfl)

end Moves

section Step
variable {mem : Memory} {life : UInt32 → Life} {info : UInt32 → MrCacheEntry} {o : Owner} {op : ℕ}

theorem nodeId_step (o : Owner) (mem : Memory) (op : ℕ) (call : OwnerCall) :
    (o.step mem op call).1.table.nodeId = o.table.nodeId := by
  cases call with
  | register device len perms =>
    simp only [step, begin]
    split_ifs <;> rfl
  | deregister handle =>
    simp only [step, begin]
    split_ifs <;> rfl
  | deregisterAsync handle =>
    simp only [step, begin]
    split_ifs <;> rfl
  | proceed =>
    simp only [step, next]
    split <;> first | rfl | (split_ifs <;> rfl)

/-- The regions after a step follow their lives as the step moves them. -/
def Follows (mem : Memory) (o : Owner) (life : UInt32 → Life) (info : UInt32 → MrCacheEntry)
    (out : Owner × Option MrPublishEvent) : Prop :=
  ∃ life' info', out.1.Traced mem life' info' ∧
    o.Moves out.1 life life' info info' (postedOf o.table.nodeId out.2)

section
variable (h : o.Traced mem life info)
include h

theorem Traced.follows_refl : o.Follows mem life info (o, none) :=
  ⟨life, info, h, Moves.refl o life info⟩

theorem Traced.follows_keep {table : MrTable} {operation : MrOperation}
    (hentries : table.entries = o.table.entries)
    (hcells : ∀ handle, (table.cells handle).state = .active ↔
      (o.table.cells handle).state = .active) (hnext : table.nextHandle = o.table.nextHandle)
    (hnode : table.nodeId = o.table.nodeId)
    (hleaving : operation.leaving = (o.operation op).leaving)
    (hreserved : ∀ e, operation ≠ .reserved e) (hinserted : ∀ e, operation ≠ .inserted e)
    (hop : (o.operation op).unsent = none) (hoperation : operation.unsent = none) :
    o.Follows mem life info (o.proceed op table operation, none) := by
  refine ⟨life, info, ?_, ?_⟩
  · exact h.keep hentries hcells hnext hnode hleaving hreserved hinserted
  · exact Moves.silent 0 (fun _ _ => ⟨rfl, rfl⟩) (fun hold => ⟨hold, rfl⟩) Iff.rfl
      (fun _ => rfl) hop hoperation

theorem Traced.follows_begin (hidle : o.operation op = .idle) (call : OwnerCall) :
    o.Follows mem life info (o.begin mem op call) := by
  cases call with
  | register device len perms =>
    simp only [begin]
    split_ifs with hlen
    · exact h.follows_refl
    · exact h.follows_keep rfl (fun _ => Iff.rfl) rfl rfl (by rw [hidle]; rfl) (by simp) (by simp)
        (by rw [hidle]; rfl) rfl
  | deregister handle =>
    simp only [begin]
    split_ifs with hfound
    · refine ⟨_, info, h.revoke hfound.2 (by rw [hidle]; rfl) rfl, ?_⟩
      rw [postedOf_revoke]
      exact h.moves_revoke ((h.active handle).mp hfound.2) (by rw [hidle]; rfl)
        (Or.inr ⟨rfl, rfl⟩)
    · exact h.follows_refl
  | deregisterAsync handle =>
    simp only [begin]
    split_ifs with hlisted
    · exact h.follows_keep rfl (fun _ => Iff.rfl) rfl rfl (by rw [hidle]; rfl) (by simp) (by simp)
        (by rw [hidle]; rfl) rfl
    · exact h.follows_refl
  | proceed => exact h.follows_refl

theorem Traced.follows_next (horderly : o.Orderly op .proceed) :
    o.Follows mem life info (o.next mem op) := by
  unfold next
  cases hop : o.operation op with
  | idle => exact h.follows_refl
  | allocated device offset len perms =>
    simp only [Orderly, hop] at horderly
    have hunseen : life o.table.nextHandle = .unseen := h.unseen _ (UInt32.le_refl _)
    refine ⟨_, _, h.take (by rw [hop]; rfl) horderly device offset len perms, ?_⟩
    apply Moves.silent o.table.nextHandle
    case hothers =>
      exact fun handle' hh => ⟨Function.update_of_ne hh .., Function.update_of_ne hh ..⟩
    case hseen => simp [hunseen, Life.Seen]
    case hlive => simp [hunseen]
    case hinfo => simp [hunseen]
    case hop => rw [hop]; rfl
    case hoperation => rfl
  | reserved e => exact ⟨_, info, h.insert hop, h.moves_insert hop⟩
  | inserted e =>
    simp only [Orderly, hop] at horderly
    refine ⟨life, info, ?_, ?_⟩
    · exact h.keep rfl (fun _ => Iff.rfl) rfl rfl (by rw [hop]; rfl) (by simp) (by simp)
    · rw [postedOf_publish]
      exact h.publish hop horderly
  | found handle =>
    dsimp only
    split_ifs with hactive
    · exact ⟨_, info, h.revoke hactive (by rw [hop]; rfl) rfl,
        h.moves_revoke ((h.active handle).mp hactive) (by rw [hop]; rfl) (Or.inl ⟨rfl, rfl⟩)⟩
    · exact h.follows_keep rfl (fun _ => Iff.rfl) rfl rfl (by rw [hop]; rfl) (by simp) (by simp)
        (by rw [hop]; rfl) rfl
  | revoked handle =>
    refine ⟨life, info, ?_, ?_⟩
    · exact h.keep rfl (fun _ => Iff.rfl) rfl rfl (by rw [hop]; rfl) (by simp) (by simp)
    · rw [postedOf_revoke]
      exact h.post hop
  | waiting handle =>
    have hlife : life handle = .leaving op := (h.leaving op handle).mp (by rw [hop]; rfl)
    refine h.follows_keep rfl (fun handle' => ?_) rfl rfl (by rw [hop]; rfl) (by simp) (by simp)
      (by rw [hop]; rfl) rfl
    by_cases hh : handle' = handle
    · simpa [MrTable.setState, hh, hlife] using h.active handle
    · simp [MrTable.setState, hh]
  | removing handle =>
    have hlife : life handle = .leaving op := (h.leaving op handle).mp (by rw [hop]; rfl)
    refine ⟨_, info, h.remove (by rw [hop]; rfl), ?_⟩
    apply Moves.silent handle
    case hothers => exact fun handle' hh => ⟨Function.update_of_ne hh .., rfl⟩
    case hseen => simp [Life.Seen]
    case hlive => simp [hlife]
    case hinfo => exact fun _ => rfl
    case hop => rw [hop]; rfl
    case hoperation => rfl

theorem Traced.follows_step {call : OwnerCall} (horderly : o.Orderly op call) :
    o.Follows mem life info (o.step mem op call) := by
  cases call with
  | proceed => exact h.follows_next horderly
  | _ =>
    simp only [step]
    split_ifs with hidle
    · exact h.follows_begin hidle _
    · exact h.follows_refl

end

end Step
end Owner
end UniBus.Control
