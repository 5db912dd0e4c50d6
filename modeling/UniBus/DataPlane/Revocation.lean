import UniBus.Control.MrSync
import UniBus.DataPlane.Registration
import UniBus.Foundations.Threads

/-!
# Operations on a revoked region

Frames and local verbs in steps: the look into the table, the check of the state
and the device operation. They interleave with each other, with registrations and
with the steps of deregistrations. The handlers of frames check the state of their
region. The local verbs do not, and what keeps them from a revoked region is only
that the table has no entry for the address.
-/
namespace UniBus.DataPlane

open Wire
open Runs (Justified)
open Threads (Pool)

/-! ## Operations in steps -/

namespace Request

def frame : Request → Option DataExtHeader
  | write ext _ | writeImm ext _ | readReq ext _ | atomicCas ext _ | atomicFaa ext _ => some ext
  | ubReadSync .. | ubWriteSync .. | ubAtomicCasSync .. | ubAtomicFaaSync .. => none

def verb : Request → Verb
  | write .. | ubWriteSync .. => .write
  | writeImm .. => .writeImm
  | readReq .. | ubReadSync .. => .readReq
  | atomicCas .. | ubAtomicCasSync .. => .atomicCas
  | atomicFaa .. | ubAtomicFaaSync .. => .atomicFaa

/-- The device operation, unless a check of the alignment or the operands fails. -/
def operands (e : MrEntry) : Request → Option DeviceOp
  | write _ payload | writeImm _ payload => some (.write payload)
  | readReq _ payload => some (.read (readLen payload))
  | atomicCas ext payload =>
    if offsetInMr e ext.ubAddr % 8 = 0 ∧ 16 ≤ payload.length then
      some (.atomicCas (operand payload 0) (operand payload 1))
    else none
  | atomicFaa ext payload =>
    if offsetInMr e ext.ubAddr % 8 = 0 ∧ 8 ≤ payload.length then
      some (.atomicFaa (operand payload 0))
    else none
  | ubReadSync _ len => some (.read len)
  | ubWriteSync _ buf => some (.write buf)
  | ubAtomicCasSync addr expect new =>
    if addr.offset % 8 = 0 then some (.atomicCas expect new) else none
  | ubAtomicFaaSync addr add => if addr.offset % 8 = 0 then some (.atomicFaa add) else none

/-- The device operation, if the region permits it. -/
def operation (e : MrEntry) (r : Request) : Option DeviceOp :=
  if e.perms.contains (MrEntry.requiredPerms r.verb) then r.operands e else none

end Request

/-- Where an operation stands. -/
inductive OpPhase
  | start
  | found (e : MrEntry)
  | admitted (e : MrEntry)
  | done (ok : Bool)
  deriving DecidableEq

/-- What is seen of the operations and the regions. -/
inductive RegionEvent
  | revoked (e : MrEntry)
  | started (op : ℕ)
  | accessed (op : ℕ) (access : Access)
  | finished (op : ℕ) (ok : Bool)
  deriving DecidableEq

namespace Request

/-- The next step of an operation. Only frames take an in-flight reference, and
give it back with the device operation. -/
def opStep (r : Request) (op : ℕ) (h : Host) : OpPhase → Host × OpPhase × List RegionEvent
  | .start =>
    match r.target h with
    | none => (h, .done false, [.started op, .finished op false])
    | some e => (h, .found e, [.started op])
  | .found e =>
    if r.frame.isSome then
      match h.mrTable.tryInflightInc e with
      | none => (h, .done false, [.finished op false])
      | some mrTable => ({ h with mrTable }, .admitted e, [])
    else (h, .admitted e, [])
  | .admitted e =>
    let released :=
      if r.frame.isSome then { h with mrTable := h.mrTable.inflightDec e } else h
    match r.operation e with
    | none => (released, .done false, [.finished op false])
    | some act =>
      match act.apply (h.memory e.device) (deviceOffset e r.addr) with
      | .error _ => (released, .done false, [.finished op false])
      | .ok (d, _) =>
        ({ released with memory := Function.update h.memory e.device d }, .done true,
          [.accessed op ⟨e.device, act.kind, (deviceOffset e r.addr).toNat, act.count⟩,
            .finished op true])
  | .done ok => (h, .done ok, [])

variable {h : Host} {e : MrEntry}

theorem admitted_eq (h : Host) (ext : DataExtHeader) (verb : Verb) :
    admitted h ext verb = (h.mrTable.lookup ext.mrHandle).bind fun e =>
      if (h.mrTable.cells e.handle).state ≠ .active then none
      else if e.perms.contains (MrEntry.requiredPerms verb) then some e else none := by
  unfold admitted acquire MrTable.tryInflightInc MrEntry.checkPerms
  cases h.mrTable.lookup ext.mrHandle with
  | none => rfl
  | some e =>
    dsimp only [Option.bind_some]
    split_ifs <;> rfl

theorem admittedLocal_eq (h : Host) (addr : UbAddr) (verb : Verb) :
    admittedLocal h addr verb = ((h.mrTable.lookupByAddr addr).map Prod.fst).bind fun e =>
      if e.perms.contains (MrEntry.requiredPerms verb) then some e else none := by
  unfold admittedLocal resolveLocal MrEntry.checkPerms
  cases h.mrTable.lookupByAddr addr with
  | none => rfl
  | some found =>
    dsimp only [Option.map_some, Option.bind_some]
    split_ifs <;> rfl

theorem attempt_eq (h : Host) (r : Request) :
    r.attempt h = (r.target h).bind fun e =>
      if r.frame.isSome ∧ (h.mrTable.cells e.handle).state ≠ .active then none
      else (r.operation e).map fun act => (e, act) := by
  cases r with
  | write ext payload | writeImm ext payload | readReq ext payload | atomicCas ext payload
  | atomicFaa ext payload =>
    simp only [attempt, admitted_eq, target]
    cases h.mrTable.lookup ext.mrHandle with
    | none => rfl
    | some e =>
      simp only [Option.bind_some, frame, Option.isSome_some, true_and, operation, operands, verb]
      split_ifs <;> simp [*]
  | ubReadSync addr len | ubWriteSync addr buf =>
    simp only [attempt, admittedLocal_eq, target]
    cases h.mrTable.lookupByAddr addr with
    | none => rfl
    | some found =>
      simp only [Option.map_some, Option.bind_some, frame, operation, operands, verb]
      split_ifs <;> simp_all
  | ubAtomicCasSync addr expect new | ubAtomicFaaSync addr add =>
    simp only [attempt, admittedLocal_eq, target]
    cases h.mrTable.lookupByAddr addr with
    | none => simp
    | some found =>
      simp only [Option.map_some, Option.bind_some, frame, operation, operands, verb]
      split_ifs <;> simp_all

/-- The steps of an operation with nothing in between. -/
def allSteps (r : Request) (op : ℕ) (h : Host) : Host × List RegionEvent :=
  let first := r.opStep op h .start
  let second := r.opStep op first.1 first.2.1
  let third := r.opStep op second.1 second.2.1
  (third.1, first.2.2 ++ second.2.2 ++ third.2.2)

def accesses (events : List RegionEvent) : List Access :=
  events.filterMap fun
    | .accessed _ access => some access
    | _ => none

theorem allSteps_admitted (r : Request) (op : ℕ) (htarget : r.target h = some e)
    (hadmits : ¬(r.frame.isSome ∧ (h.mrTable.cells e.handle).state ≠ .active)) :
    r.allSteps op h =
      match r.operation e with
      | none => (h, [.started op, .finished op false])
      | some act =>
        match act.apply (h.memory e.device) (deviceOffset e r.addr) with
        | .error _ => (h, [.started op, .finished op false])
        | .ok (d, _) =>
          ({ h with memory := Function.update h.memory e.device d },
            [.started op,
              .accessed op ⟨e.device, act.kind, (deviceOffset e r.addr).toNat, act.count⟩,
              .finished op true]) := by
  unfold allSteps
  by_cases hframe : r.frame.isSome
  · have hactive : (h.mrTable.cells e.handle).state = .active :=
      not_not.mp fun hne => hadmits ⟨hframe, hne⟩
    simp only [opStep, htarget, hframe, if_true, MrTable.tryInflightInc, hactive, ne_eq,
      not_true_eq_false, if_false, MrTable.inflightDec_inflightAdd]
    cases r.operation e with
    | none => rfl
    | some act =>
      dsimp only
      cases act.apply (h.memory e.device) (deviceOffset e r.addr) <;> rfl
  · simp only [opStep, htarget, if_neg hframe]
    cases r.operation e with
    | none => rfl
    | some act =>
      dsimp only
      cases act.apply (h.memory e.device) (deviceOffset e r.addr) <;> rfl

/-- In a row the steps are the handler or the local verb. -/
theorem allSteps_eq_perform (r : Request) (op : ℕ) (h : Host) :
    (r.allSteps op h).1.memory = (r.perform h).memory ∧
      accesses (r.allSteps op h).2 = (r.perform h).access.toList ∧
      (r.allSteps op h).1.mrTable = h.mrTable := by
  have hattempt := r.attempt_eq h
  cases htarget : r.target h with
  | none =>
    rw [htarget] at hattempt
    obtain ⟨reply, -, hperform⟩ := perform_of_attempt_eq_none hattempt
    have hall : r.allSteps op h = (h, [.started op, .finished op false]) := by
      simp [allSteps, opStep, htarget]
    rw [hall, hperform h.memory]
    exact ⟨rfl, rfl, rfl⟩
  | some e =>
    rw [htarget, Option.bind_some] at hattempt
    by_cases hrefused : r.frame.isSome ∧ (h.mrTable.cells e.handle).state ≠ .active
    · rw [if_pos hrefused] at hattempt
      obtain ⟨reply, -, hperform⟩ := perform_of_attempt_eq_none hattempt
      have hall : r.allSteps op h = (h, [.started op, .finished op false]) := by
        simp [allSteps, opStep, htarget, hrefused.1, MrTable.tryInflightInc, hrefused.2]
      rw [hall, hperform h.memory]
      exact ⟨rfl, rfl, rfl⟩
    · rw [if_neg hrefused] at hattempt
      have hall := r.allSteps_admitted op htarget hrefused
      cases hop : r.operation e with
      | none =>
        rw [hop] at hattempt
        obtain ⟨reply, -, hperform⟩ := perform_of_attempt_eq_none hattempt
        rw [hall, hop, hperform h.memory]
        exact ⟨rfl, rfl, rfl⟩
      | some act =>
        rw [hop] at hattempt
        obtain ⟨reply, -, hperform⟩ := perform_of_attempt_eq_some hattempt
        rw [hall, hop, hperform h.memory]
        dsimp only [attempted]
        cases act.apply (h.memory e.device) (deviceOffset e r.addr) <;> exact ⟨rfl, rfl, rfl⟩

end Request

/-! ## Operations next to deregistrations -/

/-- A host and the operations on it. -/
abbrev HostPool (n : ℕ) := Pool (Fin n) Host OpPhase

/-- A turn of an operation, a registration, or a step of a deregistration: the
exchange to Revoking, the change to Released, and the removal from the table. -/
inductive HostTurn (n : ℕ)
  | op (i : Fin n)
  | register (c : Registration)
  | revoke (handle : UInt32)
  | release (handle : UInt32)
  | unlist (handle : UInt32)

namespace HostPool

variable {n : ℕ}

def setTable (p : HostPool n) (mrTable : MrTable) : HostPool n :=
  { p with shared := { p.shared with mrTable } }

variable (reqs : Fin n → Request)

/-- After the exchange the other steps of a deregistration may come at any time. -/
def step (p : HostPool n) : HostTurn n → HostPool n × List RegionEvent
  | .op i => p.turn i fun h phase => (reqs i).opStep i h phase
  | .register c => (p.setTable (registerCall p.shared.memory p.shared.mrTable c), [])
  | .revoke handle =>
    match p.shared.mrTable.lookup handle with
    | none => (p, [])
    | some e =>
      if (p.shared.mrTable.cells handle).state = .active then
        (p.setTable (p.shared.mrTable.setState handle .revoking), [.revoked e])
      else (p, [])
  | .release handle =>
    if (p.shared.mrTable.cells handle).state = .revoking then
      (p.setTable (p.shared.mrTable.setState handle .released), [])
    else (p, [])
  | .unlist handle =>
    if (p.shared.mrTable.cells handle).state = .active then (p, [])
    else (p.setTable (p.shared.mrTable.removeEntry handle), [])

/-- The operation started after a region with its address was revoked. -/
def Late (log : List RegionEvent) (i : Fin n) : Prop :=
  ∃ e before after, log = before ++ .started i :: after ∧ .revoked e ∈ before ∧
    Holds e (reqs i).addr

/-- An operation that started late neither touches a device nor succeeds. -/
def Respected (before : List RegionEvent) (ev : RegionEvent) : Prop :=
  ∀ i : Fin n, Late reqs before i → (∀ access, ev ≠ .accessed i access) ∧ ev ≠ .finished i true

/-- Handles are not used again. A frame for an address of a revoked region has the
handle of a revoked region; a local verb for such an address finds no region. -/
def Proper (p : HostPool n) (log : List RegionEvent) : HostTurn n → Prop
  | .op i => p.thread i = .start → ∀ e, .revoked e ∈ log → Holds e (reqs i).addr →
    match (reqs i).frame with
    | some ext => ∃ e', .revoked e' ∈ log ∧ ext.mrHandle = e'.handle
    | none => p.shared.mrTable.lookupByAddr (reqs i).addr = none
  | .register _ => ∀ e, .revoked e ∈ log → e.handle ≠ p.shared.mrTable.nextHandle
  | _ => True

structure Respects (p : HostPool n) (log : List RegionEvent) : Prop where
  keyed : ∀ handle e, p.shared.mrTable.lookup handle = some e → e.handle = handle
  revoked : ∀ e, .revoked e ∈ log → (p.shared.mrTable.cells e.handle).state ≠ .active
  started : ∀ i : Fin n, .started i ∈ log → p.thread i ≠ .start
  found : ∀ i e, Late reqs log i → p.thread i = .found e →
    (reqs i).frame.isSome ∧ ∃ e', .revoked e' ∈ log ∧ e'.handle = e.handle
  admitted : ∀ i e, Late reqs log i → p.thread i ≠ .admitted e
  respected : Justified (Respected reqs) log

variable {reqs} {p : HostPool n} {log events : List RegionEvent}

theorem late_append {i : Fin n} (hevents : .started (i : ℕ) ∉ events) :
    Late reqs (log ++ events) i ↔ Late reqs log i := by
  constructor
  · rintro ⟨e, before, after, heq, hrevoked, hholds⟩
    rcases Runs.append_split heq with ⟨rest, hlog, -⟩ | ⟨mid, -, hnew⟩
    · exact ⟨e, before, rest, hlog, hrevoked, hholds⟩
    · exact absurd (by rw [hnew]; simp) hevents
  · rintro ⟨e, before, after, heq, hrevoked, hholds⟩
    exact ⟨e, before, after ++ events, by rw [heq]; simp, hrevoked, hholds⟩

theorem late_start {i : Fin n} (hstarted : .started (i : ℕ) ∉ log)
    (hlate : Late reqs (log ++ [.started i]) i) :
    ∃ e, .revoked e ∈ log ∧ Holds e (reqs i).addr := by
  obtain ⟨e, before, after, heq, hrevoked, hholds⟩ := hlate
  rcases Runs.concat_split heq with ⟨rest, hlog, -⟩ | ⟨rfl, -, -⟩
  · exact absurd (by rw [hlog]; simp) hstarted
  · exact ⟨e, hrevoked, hholds⟩

/-! ### Changes of the table -/

theorem Respects.table (h : Respects reqs p log) {t : MrTable}
    (hkeyed : ∀ handle e, t.lookup handle = some e → e.handle = handle)
    (hevents : ∀ ev ∈ events, ∃ e, ev = .revoked e)
    (hrevoked : ∀ e, .revoked e ∈ log ++ events → (t.cells e.handle).state ≠ .active) :
    Respects reqs (p.setTable t) (log ++ events) := by
  have hlate : ∀ i : Fin n, Late reqs (log ++ events) i ↔ Late reqs log i := by
    intro i
    apply late_append
    intro hmem
    obtain ⟨e, he⟩ := hevents _ hmem
    cases he
  constructor
  · exact hkeyed
  · exact hrevoked
  · intro i hmem
    rcases List.mem_append.mp hmem with hmem | hmem
    · exact h.started i hmem
    · obtain ⟨e, he⟩ := hevents _ hmem
      cases he
  · intro i e hi hthread
    obtain ⟨hframe, e', he', hhandle⟩ := h.found i e ((hlate i).mp hi) hthread
    exact ⟨hframe, e', List.mem_append_left _ he', hhandle⟩
  · intro i e hi
    exact h.admitted i e ((hlate i).mp hi)
  · apply h.respected.append
    intro mid ev after heq i _
    obtain ⟨e, rfl⟩ := hevents ev (by rw [heq]; simp)
    exact ⟨fun access => by simp, by simp⟩

theorem Respects.quiet (h : Respects reqs p log) {t : MrTable}
    (hkeyed : ∀ handle e, t.lookup handle = some e → e.handle = handle)
    (hrevoked : ∀ e, .revoked e ∈ log → (t.cells e.handle).state ≠ .active) :
    Respects reqs (p.setTable t) (log ++ []) :=
  h.table hkeyed (by simp) (by simpa using hrevoked)

theorem state_inflightAdd (t : MrTable) (handle : UInt32) (count : ℤ) (x : UInt32) :
    ((t.inflightAdd handle count).cells x).state = (t.cells x).state := by
  by_cases hx : x = handle
  · subst hx
    simp [MrTable.inflightAdd]
  · simp [MrTable.inflightAdd, hx]

theorem state_setState {t : MrTable} {handle x : UInt32} {state : MrState}
    (hx : (t.cells x).state ≠ .active ∨ x = handle) (hstate : state ≠ .active) :
    ((t.setState handle state).cells x).state ≠ .active := by
  by_cases heq : x = handle
  · subst heq
    simpa [MrTable.setState] using hstate
  · simpa [MrTable.setState, heq] using hx.resolve_right heq

theorem Respects.register (h : Respects reqs p log) (c : Registration)
    (hproper : ∀ e, .revoked e ∈ log → e.handle ≠ p.shared.mrTable.nextHandle) :
    Respects reqs (p.setTable (registerCall p.shared.memory p.shared.mrTable c)) (log ++ []) := by
  by_cases hlen : c.len = 0
  · rw [registerCall_of_len_eq_zero hlen]
    exact h.quiet h.keyed h.revoked
  · apply h.quiet
    · intro handle e hlookup
      rw [lookup_registerCall hlen] at hlookup
      split_ifs at hlookup with hnew
      · cases hlookup
        exact hnew.symm
      · exact h.keyed handle e hlookup
    · intro e he
      have hcells : ((registerCall p.shared.memory p.shared.mrTable c).cells e.handle) =
          p.shared.mrTable.cells e.handle := by
        simp [registerCall, MrTable.register, hlen, hproper e he]
      rw [hcells]
      exact h.revoked e he

theorem Respects.revoke (h : Respects reqs p log) (handle : UInt32) :
    Respects reqs (p.step reqs (.revoke handle)).1 (log ++ (p.step reqs (.revoke handle)).2) := by
  unfold step
  dsimp only
  cases hlookup : p.shared.mrTable.lookup handle with
  | none => exact h.quiet h.keyed h.revoked
  | some e =>
    dsimp only
    split_ifs
    · refine h.table (t := p.shared.mrTable.setState handle .revoking) h.keyed ?_ ?_
      · intro ev hev
        exact ⟨e, List.mem_singleton.mp hev⟩
      · intro e' he'
        rcases List.mem_append.mp he' with hold | hnew
        · exact state_setState (Or.inl (h.revoked e' hold)) (by decide)
        · cases List.mem_singleton.mp hnew
          exact state_setState (Or.inr (h.keyed handle e hlookup)) (by decide)
    · exact h.quiet h.keyed h.revoked

theorem Respects.release (h : Respects reqs p log) (handle : UInt32) :
    Respects reqs (p.step reqs (.release handle)).1 (log ++ (p.step reqs (.release handle)).2) := by
  unfold step
  dsimp only
  split_ifs
  · exact h.quiet h.keyed fun e he => state_setState (Or.inl (h.revoked e he)) (by decide)
  · exact h.quiet h.keyed h.revoked

theorem Respects.unlist (h : Respects reqs p log) (handle : UInt32) :
    Respects reqs (p.step reqs (.unlist handle)).1 (log ++ (p.step reqs (.unlist handle)).2) := by
  unfold step
  dsimp only
  split_ifs
  · exact h.quiet h.keyed h.revoked
  · refine h.quiet ?_ h.revoked
    intro x e hlookup
    by_cases hx : x = handle
    · subst hx
      have hnone : (p.shared.mrTable.removeEntry x).lookup x = none := AList.lookup_erase _ _
      rw [hnone] at hlookup
      cases hlookup
    · have hsame : (p.shared.mrTable.removeEntry handle).lookup x = p.shared.mrTable.lookup x :=
        AList.lookup_erase_ne hx
      rw [hsame] at hlookup
      exact h.keyed x e hlookup

/-! ### Turns of an operation -/

/-- The events of a turn of an operation. -/
def Own (i : Fin n) (ev : RegionEvent) : Prop :=
  ev = .started i ∨ (∃ access, ev = .accessed i access) ∨ ∃ ok, ev = .finished i ok

theorem Respects.turn (h : Respects reqs p log) {i : Fin n} {host : Host} {phase : OpPhase}
    (hentries : host.mrTable.entries = p.shared.mrTable.entries)
    (hstate : ∀ x, (host.mrTable.cells x).state = (p.shared.mrTable.cells x).state)
    (hevents : ∀ ev ∈ events, Own i ev) (hphase : phase ≠ .start)
    (hfound : ∀ e, Late reqs (log ++ events) i → phase = .found e →
      (reqs i).frame.isSome ∧ ∃ e', .revoked e' ∈ log ∧ e'.handle = e.handle)
    (hadmitted : ∀ e, Late reqs (log ++ events) i → phase ≠ .admitted e)
    (hrespected : Justified (Respected reqs) (log ++ events)) :
    Respects reqs ⟨host, Function.update p.thread i phase⟩ (log ++ events) := by
  have hrevokedMem : ∀ e, .revoked e ∈ log ++ events → .revoked e ∈ log := by
    intro e he
    rcases List.mem_append.mp he with hold | hnew
    · exact hold
    · rcases hevents _ hnew with heq | ⟨access, heq⟩ | ⟨ok, heq⟩ <;> cases heq
  have hlate : ∀ j : Fin n, j ≠ i → (Late reqs (log ++ events) j ↔ Late reqs log j) := by
    intro j hj
    apply late_append
    intro hmem
    rcases hevents _ hmem with heq | ⟨access, heq⟩ | ⟨ok, heq⟩
    · exact hj (Fin.val_injective (RegionEvent.started.inj heq))
    · cases heq
    · cases heq
  constructor
  · intro handle e hlookup
    apply h.keyed handle e
    rw [← hlookup, MrTable.lookup, MrTable.lookup, hentries]
  · intro e he
    show (host.mrTable.cells e.handle).state ≠ .active
    rw [hstate]
    exact h.revoked e (hrevokedMem e he)
  · intro j hmem
    by_cases hj : j = i
    · subst hj
      simpa using hphase
    · simp only [Function.update_of_ne hj]
      rcases List.mem_append.mp hmem with hold | hnew
      · exact h.started j hold
      · rcases hevents _ hnew with heq | ⟨access, heq⟩ | ⟨ok, heq⟩
        · exact absurd (Fin.val_injective (RegionEvent.started.inj heq)) hj
        · cases heq
        · cases heq
  · intro j e hj hthread
    by_cases hij : j = i
    · subst hij
      simp only [Function.update_self] at hthread
      obtain ⟨hframe, e', he', hhandle⟩ := hfound e hj hthread
      exact ⟨hframe, e', List.mem_append_left _ he', hhandle⟩
    · simp only [Function.update_of_ne hij] at hthread
      obtain ⟨hframe, e', he', hhandle⟩ := h.found j e ((hlate j hij).mp hj) hthread
      exact ⟨hframe, e', List.mem_append_left _ he', hhandle⟩
  · intro j e hj
    by_cases hij : j = i
    · subst hij
      simpa using hadmitted e hj
    · simp only [Function.update_of_ne hij]
      exact h.admitted j e ((hlate j hij).mp hj)
  · exact hrespected

theorem respected_of_own {i : Fin n} {ev : RegionEvent}
    (hown : Own i ev) (hev : Late reqs log i → (∀ access, ev ≠ .accessed i access) ∧
      ev ≠ .finished i true) : Respected reqs log ev := by
  intro j hj
  by_cases hij : j = i
  · subst hij
    exact hev hj
  · have hne : (i : ℕ) ≠ j := fun heq => hij (Fin.val_injective heq.symm)
    rcases hown with rfl | ⟨access, rfl⟩ | ⟨ok, rfl⟩
    · exact ⟨fun access => by simp, by simp⟩
    · exact ⟨fun access' heq => hne (RegionEvent.accessed.inj heq).1, by simp⟩
    · exact ⟨fun access => by simp, fun heq => hne (RegionEvent.finished.inj heq).1⟩

theorem respected_started (log : List RegionEvent) (i : Fin n) :
    Respected reqs log (.started i) :=
  respected_of_own (Or.inl rfl) fun _ => ⟨fun access => by simp, by simp⟩

theorem respected_failed (log : List RegionEvent) (i : Fin n) :
    Respected reqs log (.finished i false) :=
  respected_of_own (Or.inr (Or.inr ⟨false, rfl⟩)) fun _ => ⟨fun access => by simp, by simp⟩

theorem own_failed (i : Fin n) : ∀ ev ∈ [RegionEvent.finished i false], Own i ev := by
  intro ev hev
  exact Or.inr (Or.inr ⟨false, List.mem_singleton.mp hev⟩)

theorem step_op {i : Fin n} {phase : OpPhase} (hthread : p.thread i = phase) :
    p.step reqs (.op i) =
      (⟨((reqs i).opStep i p.shared phase).1,
        Function.update p.thread i ((reqs i).opStep i p.shared phase).2.1⟩,
        ((reqs i).opStep i p.shared phase).2.2) := by
  subst hthread
  rfl

theorem Respects.start (h : Respects reqs p log) {i : Fin n} (hthread : p.thread i = .start)
    (hproper : Proper reqs p log (.op i)) :
    Respects reqs (p.step reqs (.op i)).1 (log ++ (p.step reqs (.op i)).2) := by
  have hfresh : .started (i : ℕ) ∉ log := fun hmem => h.started i hmem hthread
  rw [step_op hthread]
  cases htarget : (reqs i).target p.shared with
  | none =>
    simp only [Request.opStep, htarget]
    refine h.turn rfl (fun _ => rfl) ?_ (by simp) (by simp) (by simp) ?_
    · intro ev hev
      rcases List.mem_cons.mp hev with rfl | hev
      · exact Or.inl rfl
      · exact own_failed i ev hev
    · exact h.respected.pair (respected_started log i) (respected_failed _ i)
  | some e =>
    simp only [Request.opStep, htarget]
    refine h.turn rfl (fun _ => rfl) ?_ (by simp) ?_ (by simp)
      (h.respected.concat (respected_started log i))
    · intro ev hev
      exact Or.inl (List.mem_singleton.mp hev)
    · intro e' hlate hphase
      cases hphase
      obtain ⟨e₀, hrevoked, hholds⟩ := late_start hfresh hlate
      have hcase := hproper hthread e₀ hrevoked hholds
      cases hr : reqs i with
      | write ext payload | writeImm ext payload | readReq ext payload | atomicCas ext payload
      | atomicFaa ext payload =>
        rw [hr] at hcase htarget
        obtain ⟨e₁, hrevoked₁, hhandle⟩ := hcase
        exact ⟨rfl, e₁, hrevoked₁, by rw [h.keyed _ _ htarget, hhandle]⟩
      | ubReadSync addr len | ubWriteSync addr buf | ubAtomicCasSync addr expect new
      | ubAtomicFaaSync addr add =>
        rw [hr] at hcase htarget
        have hnone : p.shared.mrTable.lookupByAddr addr = none := hcase
        simp [Request.target, hnone] at htarget

theorem Respects.check (h : Respects reqs p log) {i : Fin n} {e : MrEntry}
    (hthread : p.thread i = .found e) :
    Respects reqs (p.step reqs (.op i)).1 (log ++ (p.step reqs (.op i)).2) := by
  rw [step_op hthread]
  by_cases hframe : (reqs i).frame.isSome
  · by_cases hactive : (p.shared.mrTable.cells e.handle).state = .active
    · have hstep : (reqs i).opStep i p.shared (.found e) =
          ({ p.shared with mrTable := p.shared.mrTable.inflightAdd e.handle 1 }, .admitted e,
            []) := by
        simp [Request.opStep, hframe, MrTable.tryInflightInc, hactive]
      rw [hstep]
      refine h.turn rfl (state_inflightAdd _ _ _) (by simp) (by simp) (by simp) ?_
        (by simpa using h.respected)
      intro e' hlate _
      rw [List.append_nil] at hlate
      obtain ⟨-, e₁, hrevoked, hhandle⟩ := h.found i e hlate hthread
      exact h.revoked e₁ hrevoked (hhandle ▸ hactive)
    · have hstep : (reqs i).opStep i p.shared (.found e) =
          (p.shared, .done false, [.finished i false]) := by
        simp [Request.opStep, hframe, MrTable.tryInflightInc, hactive]
      rw [hstep]
      exact h.turn rfl (fun _ => rfl) (own_failed i) (by simp) (by simp) (by simp)
        (h.respected.concat (respected_failed log i))
  · have hstep : (reqs i).opStep i p.shared (.found e) = (p.shared, .admitted e, []) := by
      simp [Request.opStep, hframe]
    rw [hstep]
    refine h.turn rfl (fun _ => rfl) (by simp) (by simp) (by simp) ?_ (by simpa using h.respected)
    intro e' hlate _
    rw [List.append_nil] at hlate
    exact hframe (h.found i e hlate hthread).1

theorem opStep_admitted (r : Request) (op : ℕ) (h : Host) (e : MrEntry) :
    ∃ host ok events, r.opStep op h (.admitted e) = (host, .done ok, events) ∧
      host.mrTable.entries = h.mrTable.entries ∧
      (∀ x, (host.mrTable.cells x).state = (h.mrTable.cells x).state) ∧
      (events = [.finished op false] ∨
        ∃ access, events = [.accessed op access, .finished op true]) := by
  unfold Request.opStep
  dsimp only
  have hreleased :
      (if r.frame.isSome then { h with mrTable := h.mrTable.inflightDec e }
        else h).mrTable.entries = h.mrTable.entries ∧
      ∀ x, ((if r.frame.isSome then { h with mrTable := h.mrTable.inflightDec e }
        else h).mrTable.cells x).state = (h.mrTable.cells x).state := by
    split_ifs
    · exact ⟨rfl, state_inflightAdd _ _ _⟩
    · exact ⟨rfl, fun _ => rfl⟩
  cases r.operation e with
  | none => exact ⟨_, _, _, rfl, hreleased.1, hreleased.2, Or.inl rfl⟩
  | some act =>
    dsimp only
    cases act.apply (h.memory e.device) (deviceOffset e r.addr) with
    | error err => exact ⟨_, _, _, rfl, hreleased.1, hreleased.2, Or.inl rfl⟩
    | ok result => exact ⟨_, _, _, rfl, hreleased.1, hreleased.2, Or.inr ⟨_, rfl⟩⟩

theorem Respects.act (h : Respects reqs p log) {i : Fin n} {e : MrEntry}
    (hthread : p.thread i = .admitted e) :
    Respects reqs (p.step reqs (.op i)).1 (log ++ (p.step reqs (.op i)).2) := by
  have hearly : ¬Late reqs log i := fun hlate => h.admitted i e hlate hthread
  obtain ⟨host, ok, events, hstep, hentries, hstate, hevents⟩ :=
    opStep_admitted (reqs i) i p.shared e
  rw [step_op hthread, hstep]
  rcases hevents with rfl | ⟨access, rfl⟩
  · exact h.turn hentries hstate (own_failed i) (by simp) (by simp) (by simp)
      (h.respected.concat (respected_failed log i))
  · have hown : Own i (.accessed i access) := Or.inr (Or.inl ⟨access, rfl⟩)
    have hdone : Own i (.finished i true) := Or.inr (Or.inr ⟨true, rfl⟩)
    refine h.turn hentries hstate ?_ (by simp) (by simp) (by simp) ?_
    · intro ev hev
      rcases List.mem_cons.mp hev with rfl | hev
      · exact hown
      · exact (List.mem_singleton.mp hev) ▸ hdone
    · have haccess : Respected reqs log (.accessed i access) :=
        respected_of_own hown fun hlate => absurd hlate hearly
      have hsuccess : Respected reqs (log ++ [.accessed i access]) (.finished i true) := by
        refine respected_of_own hdone fun hlate => absurd ?_ hearly
        exact (late_append (by simp)).mp hlate
      exact h.respected.pair haccess hsuccess

theorem Respects.op (h : Respects reqs p log) {i : Fin n} (hproper : Proper reqs p log (.op i)) :
    Respects reqs (p.step reqs (.op i)).1 (log ++ (p.step reqs (.op i)).2) := by
  cases hthread : p.thread i with
  | start => exact h.start hthread hproper
  | found e => exact h.check hthread
  | admitted e => exact h.act hthread
  | done ok =>
    rw [step_op hthread]
    exact h.turn rfl (fun _ => rfl) (by simp [Request.opStep]) (by simp [Request.opStep])
      (by simp [Request.opStep]) (by simp [Request.opStep])
      (by simpa [Request.opStep] using h.respected)

theorem Respects.step (h : Respects reqs p log) {turn : HostTurn n}
    (hproper : Proper reqs p log turn) :
    Respects reqs (p.step reqs turn).1 (log ++ (p.step reqs turn).2) := by
  cases turn with
  | op i => exact h.op hproper
  | register c => exact h.register c hproper
  | revoke handle => exact h.revoke handle
  | release handle => exact h.release handle
  | unlist handle => exact h.unlist handle

/-- A host without regions, and operations that have not started. -/
def new (n : ℕ) (podId nodeId : UInt16) (memory : Memory) (jettyTable : JettyTable) :
    HostPool n :=
  ⟨⟨MrTable.new podId nodeId, memory, jettyTable⟩, fun _ => .start⟩

theorem respects_new (reqs : Fin n → Request) (podId nodeId : UInt16) (memory : Memory)
    (jettyTable : JettyTable) : Respects reqs (new n podId nodeId memory jettyTable) [] where
  keyed := by
    intro handle e hlookup
    cases hlookup
  revoked := by simp
  started := by simp
  found := by
    rintro i e - hthread
    cases hthread
  admitted := by
    rintro i e - hthread
    cases hthread
  respected := Runs.justified_nil

/-- On a host that starts without regions, with any registrations, deregistrations
and operations whose steps interleave properly: an operation that starts after a
region with its address was revoked touches no device and does not succeed. -/
theorem no_access_starts_after_revocation (n : ℕ) (reqs : Fin n → Request)
    (podId nodeId : UInt16) (memory : Memory) (jettyTable : JettyTable)
    (turns : List (HostTurn n))
    (hproper : Runs.Meets (step reqs) (Proper reqs) (new n podId nodeId memory jettyTable) []
      turns) :
    Justified (Respected reqs)
      (Runs.run (step reqs) (new n podId nodeId memory jettyTable) turns).2 := by
  have hrun := Runs.run_invariant (I := Respects reqs) (fun p log turn h hC => h.step hC)
    (respects_new reqs podId nodeId memory jettyTable) hproper
  rw [List.nil_append] at hrun
  exact hrun.respected

def smallRegion : MrEntry :=
  ⟨1, 0, 0, 8, .write, UbAddr.new 1 1 0 0 0, UbAddr.offset_origin⟩

def smallHost (n : ℕ) : HostPool n :=
  new n 1 1 (fun _ => ⟨.memory, 0, List.replicate 32 0⟩) (JettyTable.new 1 16 16)

/-- A frame and a local verb, both writing to the region. -/
def twoWrites : Fin 2 → Request
  | 0 => .write ⟨.write, ExtFlags.empty, 1, 0, 0, 0, 0, 0, 1, UbAddr.new 1 1 0 4 0, none⟩ [1, 2]
  | 1 => .ubWriteSync (UbAddr.new 1 1 0 4 0) [1, 2]

theorem no_access_starts_after_revocation_listed :
    Justified (Respected twoWrites) (Runs.run (step twoWrites) (smallHost 2)
      [.register ⟨0, 8, .write⟩, .revoke 1, .op 0, .op 0, .unlist 1, .op 1]).2 := by
  apply no_access_starts_after_revocation
  refine ⟨?_, trivial, ?_, ?_, trivial, ?_, trivial⟩
  · intro e he
    cases he
  · intro _ e he _
    change RegionEvent.revoked e ∈ [RegionEvent.revoked smallRegion] at he
    cases List.mem_singleton.mp he
    exact ⟨smallRegion, he, rfl⟩
  · intro hstart
    exact absurd hstart (by decide +kernel)
  · intro _ _ _ _
    show MrTable.lookupByAddr _ _ = none
    decide +kernel

/-- While `deregister_async` waits the region is listed, and the local verb writes
to it. -/
theorem local_write_after_revocation :
    (Runs.run (step twoWrites) (smallHost 2)
      [.register ⟨0, 8, .write⟩, .revoke 1, .op 1, .op 1, .op 1]).2 =
        [.revoked smallRegion, .started 1, .accessed 1 ⟨0, .write, 4, 2⟩, .finished 1 true] ∧
      ¬Justified (Respected twoWrites) (Runs.run (step twoWrites) (smallHost 2)
        [.register ⟨0, 8, .write⟩, .revoke 1, .op 1, .op 1, .op 1]).2 := by
  have hlog : (Runs.run (step twoWrites) (smallHost 2)
      [.register ⟨0, 8, .write⟩, .revoke 1, .op 1, .op 1, .op 1]).2 =
        [.revoked smallRegion, .started 1, .accessed 1 ⟨0, .write, 4, 2⟩, .finished 1 true] := by
    decide +kernel
  refine ⟨hlog, fun hall => ?_⟩
  have hlate : Late twoWrites [.revoked smallRegion, .started 1] 1 :=
    ⟨smallRegion, [.revoked smallRegion], [], rfl, List.mem_singleton.mpr rfl,
      rfl, rfl, Nat.zero_le _, by decide⟩
  have hevent := hall [.revoked smallRegion, .started 1] (.accessed 1 ⟨0, .write, 4, 2⟩)
    [.finished 1 true] hlog 1 hlate
  exact hevent.1 _ rfl

end HostPool

end UniBus.DataPlane
