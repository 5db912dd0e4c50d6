import Mathlib.Data.List.DropRight
import UniBus.Core.JettyQueues
import UniBus.Foundations.Maps

/-!
# The default Jetty of a table

The table of all Jettys of a node with the cell that names the default one. A
creation takes the cell if it is empty, and a removal empties it if it held the
removed Jetty, so the default is the first Jetty created after a default was last
removed.
-/
namespace UniBus

structure FullJettyTable where
  entries : AList (fun _ : UInt32 => FullJetty)
  nextHandle : UInt32
  nodeId : UInt16
  config : JettyConfig
  /-- The handle of the default Jetty, or zero. -/
  defaultCell : UInt32

/-- Sets an atomic cell if it has the expected value. -/
def compareExchange (cell current new : UInt32) : UInt32 := if cell = current then new else cell

/-- The handle in a cell, if it holds one. -/
def cellHandle (cell : UInt32) : Option UInt32 := if cell = 0 then none else some cell

theorem cellHandle_fill {handle : UInt32} (h : handle ≠ 0) (cell : UInt32) :
    cellHandle (compareExchange cell 0 handle) = (cellHandle cell).or (some handle) := by
  by_cases hcell : cell = 0
  · simp [compareExchange, cellHandle, hcell, h]
  · simp [compareExchange, cellHandle, hcell]

theorem cellHandle_clear (cell handle : UInt32) :
    cellHandle (compareExchange cell handle 0) =
      if cellHandle cell = some handle then none else cellHandle cell := by
  unfold compareExchange cellHandle
  grind

namespace FullJettyTable

def new (nodeId : UInt16) (config : JettyConfig) : FullJettyTable := ⟨∅, 1, nodeId, config, 0⟩

variable (t : FullJettyTable)

def create : FullJettyTable × UInt32 :=
  let handle := t.nextHandle
  ({ t with
      nextHandle := handle + 1
      entries := t.entries.insert handle (FullJetty.new handle t.nodeId t.config)
      defaultCell := compareExchange t.defaultCell 0 handle },
    handle)

def lookup (handle : UInt32) : Option FullJetty := t.entries.lookup handle

def defaultJetty : Option UInt32 :=
  if t.defaultCell = 0 then none
  else if (t.lookup t.defaultCell).isSome then some t.defaultCell
  else none

/-- Returns the closed Jetty with the table. -/
def deregister (handle : UInt32) : Except UbError (FullJettyTable × FullJetty) :=
  match t.lookup handle with
  | some jetty =>
    .ok ({ t with
        entries := t.entries.erase handle
        defaultCell := compareExchange t.defaultCell handle 0 },
      jetty.close)
  | none => .error .addrInvalid

end FullJettyTable

/-! ## Histories of a table -/

inductive TableCall
  | create
  | deregister (handle : UInt32)
  deriving DecidableEq, Repr

/-- What the calls did: a removal notes whether the Jetty was the default. -/
inductive TableEvent
  | created (handle : UInt32)
  | removed (handle : UInt32) (wasDefault : Bool)
  deriving DecidableEq, Repr

namespace TableEvent

def handle? : TableEvent → Option UInt32
  | created handle => some handle
  | removed _ _ => none

def removesDefault : TableEvent → Bool
  | created _ => false
  | removed _ wasDefault => wasDefault

end TableEvent

namespace FullJettyTable

def step (t : FullJettyTable) : TableCall → FullJettyTable × List TableEvent
  | .create => (t.create.1, [.created t.create.2])
  | .deregister handle =>
    match t.deregister handle with
    | .ok (t', _) => (t', [.removed handle (decide (t.defaultJetty = some handle))])
    | .error _ => (t, [])

def createdHandles (log : List TableEvent) : List UInt32 := log.filterMap TableEvent.handle?

/-- The events after the last removal of a default. -/
def sinceDefaultRemoved (log : List TableEvent) : List TableEvent :=
  log.rtakeWhile fun event => !event.removesDefault

/-- The table and the log of the calls that led to it. -/
structure Consistent (t : FullJettyTable) (log : List TableEvent) : Prop where
  next : t.nextHandle.toNat = (createdHandles log).length + 1
  below : ∀ h ∈ createdHandles log, 0 < h.toNat ∧ h.toNat < t.nextHandle.toNat
  nodup : (createdHandles log).Nodup
  registered : t.defaultCell ≠ 0 → (t.lookup t.defaultCell).isSome
  earliest : (createdHandles (sinceDefaultRemoved log)).head? = cellHandle t.defaultCell

theorem consistent_new (nodeId : UInt16) (config : JettyConfig) :
    Consistent (new nodeId config) [] where
  next := rfl
  below := by simp [createdHandles]
  nodup := List.nodup_nil
  registered := fun h => absurd rfl h
  earliest := rfl

variable {t : FullJettyTable} {log : List TableEvent}

theorem Consistent.defaultJetty_eq (h : Consistent t log) :
    t.defaultJetty = cellHandle t.defaultCell := by
  unfold defaultJetty cellHandle
  split_ifs with hzero hlookup
  · rfl
  · rfl
  · exact absurd (h.registered hzero) hlookup

@[simp] theorem createdHandles_concat_created (handle : UInt32) :
    createdHandles (log ++ [.created handle]) = createdHandles log ++ [handle] := by
  simp [createdHandles, TableEvent.handle?]

@[simp] theorem createdHandles_concat_removed (handle : UInt32) (wasDefault : Bool) :
    createdHandles (log ++ [.removed handle wasDefault]) = createdHandles log := by
  simp [createdHandles, TableEvent.handle?]

@[simp] theorem sinceDefaultRemoved_concat (event : TableEvent) :
    sinceDefaultRemoved (log ++ [event]) =
      if event.removesDefault then [] else sinceDefaultRemoved log ++ [event] := by
  rw [sinceDefaultRemoved, List.rtakeWhile_concat]
  cases event.removesDefault <;> rfl

theorem isSome_lookup_create {handle : UInt32} :
    (t.create.1.lookup handle).isSome ↔ handle = t.nextHandle ∨ (t.lookup handle).isSome := by
  simp only [lookup, FullJettyTable.create, AList.lookup_isSome, AList.mem_insert]

theorem Consistent.create (h : Consistent t log)
    (hroom : (createdHandles log).length + 1 < 2 ^ 32 - 1) :
    Consistent t.create.1 (log ++ [.created t.create.2]) := by
  have hnext := h.next
  have hsucc : t.create.1.nextHandle.toNat = t.nextHandle.toNat + 1 := by
    have hlt : t.nextHandle.toNat + 1 < 2 ^ 32 := by omega
    simp only [FullJettyTable.create, UInt32.toNat_add, UInt32.toNat_one]
    exact Nat.mod_eq_of_lt hlt
  have hpos : t.nextHandle ≠ 0 := by
    intro hzero
    rw [hzero] at hnext
    simp at hnext
  refine ⟨?_, ?_, ?_, ?_, ?_⟩
  · rw [hsucc, hnext, createdHandles_concat_created, List.length_append, List.length_singleton]
  · intro h' hh'
    rw [createdHandles_concat_created, List.mem_append, List.mem_singleton] at hh'
    rw [hsucc]
    rcases hh' with hold | rfl
    · have hbelow := h.below h' hold
      omega
    · change 0 < t.nextHandle.toNat ∧ t.nextHandle.toNat < t.nextHandle.toNat + 1
      omega
  · rw [createdHandles_concat_created]
    refine h.nodup.append (List.nodup_singleton _) ?_
    rw [List.disjoint_singleton]
    intro hmem
    exact lt_irrefl _ (h.below _ hmem).2
  · intro _
    rw [isSome_lookup_create]
    by_cases hcell : t.defaultCell = 0
    · exact Or.inl (if_pos hcell)
    · have hkept : t.create.1.defaultCell = t.defaultCell := if_neg hcell
      rw [hkept]
      exact Or.inr (h.registered hcell)
  · rw [sinceDefaultRemoved_concat, TableEvent.removesDefault, if_neg Bool.false_ne_true,
      createdHandles_concat_created, List.head?_append, h.earliest]
    exact (cellHandle_fill hpos t.defaultCell).symm

theorem deregister_eq_ok {handle : UInt32} {t' : FullJettyTable} {jetty : FullJetty}
    (h : t.deregister handle = .ok (t', jetty)) :
    t' = { t with
      entries := t.entries.erase handle
      defaultCell := compareExchange t.defaultCell handle 0 } := by
  unfold FullJettyTable.deregister at h
  cases hlookup : t.lookup handle with
  | none => simp [hlookup] at h
  | some removed =>
    simp only [hlookup, Except.ok.injEq, Prod.mk.injEq] at h
    exact h.1.symm

theorem Consistent.deregister (h : Consistent t log) {handle : UInt32} {t' : FullJettyTable}
    {jetty : FullJetty} (hok : t.deregister handle = .ok (t', jetty)) :
    Consistent t' (log ++ [.removed handle (decide (t.defaultJetty = some handle))]) := by
  obtain rfl := deregister_eq_ok hok
  refine ⟨?_, ?_, ?_, ?_, ?_⟩
  · rw [createdHandles_concat_removed]
    exact h.next
  · rw [createdHandles_concat_removed]
    exact h.below
  · rw [createdHandles_concat_removed]
    exact h.nodup
  · intro hcell
    have hkept : t.defaultCell ≠ handle := fun heq => hcell (if_pos heq)
    simp only [compareExchange, if_neg hkept] at hcell ⊢
    rw [lookup, AList.lookup_erase_ne hkept]
    exact h.registered hcell
  · rw [cellHandle_clear, h.defaultJetty_eq, sinceDefaultRemoved_concat,
      TableEvent.removesDefault]
    by_cases hdefault : cellHandle t.defaultCell = some handle
    · rw [if_pos hdefault, decide_eq_true hdefault, if_pos rfl]
      rfl
    · rw [if_neg hdefault, decide_eq_false hdefault, if_neg Bool.false_ne_true,
        createdHandles_concat_removed, h.earliest]

/-! ## Every history -/

theorem Consistent.step (h : Consistent t log) (call : TableCall)
    (hroom : (createdHandles (log ++ (t.step call).2)).length < 2 ^ 32 - 1) :
    Consistent (t.step call).1 (log ++ (t.step call).2) := by
  cases call with
  | create =>
    apply h.create
    simpa [FullJettyTable.step] using hroom
  | deregister handle =>
    unfold FullJettyTable.step
    cases hok : t.deregister handle with
    | ok removed => simpa [hok] using h.deregister hok
    | error e => simpa [hok] using h

theorem length_createdHandles_run (t : FullJettyTable) (calls : List TableCall) :
    (createdHandles (Runs.run step t calls).2).length = calls.count .create := by
  induction calls generalizing t with
  | nil => rfl
  | cons call calls ih =>
    have hevents : (createdHandles (t.step call).2).length = [call].count .create := by
      cases call with
      | create => rfl
      | deregister handle =>
        cases hok : t.deregister handle with
        | ok removed => simp [FullJettyTable.step, hok, createdHandles, TableEvent.handle?]
        | error e => simp [FullJettyTable.step, hok, createdHandles]
    rw [Runs.run_cons, createdHandles, List.filterMap_append, List.length_append,
      ← List.singleton_append, List.count_append]
    exact congrArg₂ (· + ·) hevents (ih _)

theorem consistent_run (nodeId : UInt16) (config : JettyConfig) {calls : List TableCall}
    (hcalls : calls.count .create < 2 ^ 32 - 1) :
    Consistent (Runs.run step (new nodeId config) calls).1
      (Runs.run step (new nodeId config) calls).2 := by
  have hmeets : Runs.Meets step
      (fun t log call => (createdHandles (log ++ (t.step call).2)).length < 2 ^ 32 - 1)
      (new nodeId config) [] calls := by
    refine Runs.meets_of_log (P := fun log => (createdHandles log).length < 2 ^ 32 - 1) ?_ ?_
    · intro log events hlog
      rw [createdHandles, List.filterMap_append, List.length_append] at hlog
      exact lt_of_le_of_lt (Nat.le_add_right _ _) hlog
    · rw [List.nil_append, length_createdHandles_run]
      exact hcalls
  have h := Runs.run_invariant (I := Consistent) (fun t log call h => h.step call)
    (consistent_new nodeId config) hmeets
  rwa [List.nil_append] at h

/-- The handles of a table are distinct, and its default is the earliest Jetty created
since a default was last removed. -/
theorem defaultJetty_earliest (nodeId : UInt16) (config : JettyConfig) (calls : List TableCall)
    (hcalls : calls.count .create < 2 ^ 32 - 1) :
    let after := Runs.run step (new nodeId config) calls
    (createdHandles after.2).length = calls.count .create ∧
    (createdHandles after.2).Nodup ∧ 0 ∉ createdHandles after.2 ∧
    (∀ h, after.1.defaultJetty = some h → (after.1.lookup h).isSome) ∧
    after.1.defaultJetty = (createdHandles (sinceDefaultRemoved after.2)).head? := by
  intro after
  have hconsistent := consistent_run nodeId config hcalls
  refine ⟨length_createdHandles_run _ calls, hconsistent.nodup, ?_, ?_, ?_⟩
  · intro hzero
    exact lt_irrefl _ (hconsistent.below 0 hzero).1
  · intro h hdefault
    rw [hconsistent.defaultJetty_eq, cellHandle] at hdefault
    split_ifs at hdefault with hcell
    obtain rfl := Option.some.inj hdefault
    exact hconsistent.registered hcell
  · rw [hconsistent.defaultJetty_eq, hconsistent.earliest]

theorem defaultJetty_earliest_third :
    let calls : List TableCall := [.create, .create, .deregister 1, .deregister 7, .create]
    let after := Runs.run step (new 1 ⟨4, 4, 4, 4⟩) calls
    calls.count .create < 2 ^ 32 - 1 ∧ after.1.defaultJetty = some 3 ∧
      after.1.defaultJetty = (createdHandles (sinceDefaultRemoved after.2)).head? := by
  intro calls after
  have hcalls : calls.count .create < 2 ^ 32 - 1 := by decide
  exact ⟨hcalls, by decide, (defaultJetty_earliest 1 ⟨4, 4, 4, 4⟩ calls hcalls).2.2.2.2⟩

end FullJettyTable
end UniBus
