import UniBus.Core.MemoryRegion
import UniBus.Foundations.Runs
import UniBus.Foundations.Threads

/-!
# Deregistration of a region in use

Remote handlers take a reference to a region, access its device and give the
reference back, while `deregister_async` revokes the region and waits for the
references. Every atomic operation, every look into the table and every access is
a step of its own, and the steps of all parties interleave.
-/
namespace UniBus

/-- Where a handler stands. -/
inductive HandlerPhase
  | start
  | found
  /-- The region was Active when the handler loaded its state. -/
  | loaded
  | holding
  | accessed
  /-- The reference is given back; `last` if it was the only one. -/
  | decremented (last : Bool)
  | done
  deriving DecidableEq, Repr

/-- The handler's reference counts. -/
def HandlerPhase.Holds (phase : HandlerPhase) : Prop := phase = holding ∨ phase = accessed

instance : DecidablePred HandlerPhase.Holds := fun _ => inferInstanceAs (Decidable (_ ∨ _))

/-- Where `deregister_async` stands. -/
inductive DeregisterPhase
  | start
  | found
  | revoking
  | announced
  /-- In `wait_inflight_zero`, before it loads the count. -/
  | checking
  | subscribing
  | waiting
  | drained
  | timedOut
  | removing (result : Except UbError Unit)
  | returned (result : Except UbError Unit)
  deriving DecidableEq

namespace DeregisterPhase

/-- The exchange to Revoking has succeeded. -/
def Revoked : DeregisterPhase → Prop
  | start => False
  | found => False
  | returned (.error _) => False
  | _ => True

/-- The drain check has passed. -/
def Drained : DeregisterPhase → Prop
  | drained => True
  | removing (.ok _) => True
  | returned (.ok _) => True
  | _ => False

theorem Drained.revoked {phase : DeregisterPhase} (h : phase.Drained) : phase.Revoked := by
  cases phase with
  | returned result =>
    cases result with
    | ok => trivial
    | error => exact h.elim
  | drained => trivial
  | removing result => trivial
  | _ => exact h.elim

end DeregisterPhase

/-- What the parties share, with the state of the one call of `deregister_async`. -/
structure RegionUse where
  cell : MrCell
  listed : Bool
  phase : DeregisterPhase
  /-- Whether `notify_waiters` was called since the wait began. -/
  notified : Bool

inductive UseEvent
  | access (handler : ℕ)
  | returned (result : Except UbError Unit)
  deriving DecidableEq

namespace RegionUse

def new : RegionUse := ⟨⟨.active, 0⟩, true, .start, false⟩

variable (u : RegionUse)

/-- The next step of a handler; without permission it skips the access. -/
def handlerStep (handler : ℕ) (permitted : Bool) :
    HandlerPhase → RegionUse × HandlerPhase × List UseEvent
  | .start => (u, if u.listed then .found else .done, [])
  | .found => (u, if u.cell.state = .active then .loaded else .done, [])
  | .loaded =>
    ({ u with cell := { u.cell with inflightRefs := u.cell.inflightRefs + 1 } }, .holding, [])
  | .holding => (u, .accessed, if permitted then [.access handler] else [])
  | .accessed =>
    ({ u with cell := { u.cell with inflightRefs := u.cell.inflightRefs - 1 } },
      .decremented (u.cell.inflightRefs == 1), [])
  | .decremented last =>
    ({ u with notified := u.notified || (last && u.phase == .waiting) }, .done, [])
  | .done => (u, .done, [])

@[simp] theorem handlerStep_phase (handler : ℕ) (permitted : Bool) (phase : HandlerPhase) :
    (u.handlerStep handler permitted phase).1.phase = u.phase := by
  cases phase <;> rfl

@[simp] theorem handlerStep_state (handler : ℕ) (permitted : Bool) (phase : HandlerPhase) :
    (u.handlerStep handler permitted phase).1.cell.state = u.cell.state := by
  cases phase <;> rfl

theorem handlerStep_refs (handler : ℕ) (permitted : Bool) (phase : HandlerPhase) :
    (u.handlerStep handler permitted phase).1.cell.inflightRefs +
        (if phase.Holds then 1 else 0) =
      u.cell.inflightRefs +
        (if (u.handlerStep handler permitted phase).2.1.Holds then 1 else 0) := by
  cases phase with
  | start => cases hlisted : u.listed <;> simp [handlerStep, HandlerPhase.Holds, hlisted]
  | found =>
    by_cases hactive : u.cell.state = .active <;>
      simp [handlerStep, HandlerPhase.Holds, hactive]
  | _ => simp [handlerStep, HandlerPhase.Holds]

def deregisterStep : RegionUse × List UseEvent :=
  match u.phase with
  | .start =>
    if u.listed then ({ u with phase := .found }, [])
    else ({ u with phase := .returned (.error .addrInvalid) }, [.returned (.error .addrInvalid)])
  | .found =>
    if u.cell.state = .active then
      ({ u with cell := { u.cell with state := .revoking }, phase := .revoking }, [])
    else
      let result := .error (.internal "MR is already being deregistered or released")
      ({ u with phase := .returned result }, [.returned result])
  -- the Revoke event is sent here
  | .revoking => ({ u with phase := .announced }, [])
  | .announced =>
    ({ u with phase := if u.cell.inflightRefs > 0 then .checking else .drained }, [])
  | .checking =>
    ({ u with phase := if u.cell.inflightRefs = 0 then .drained else .subscribing }, [])
  | .subscribing => ({ u with phase := .waiting, notified := false }, [])
  | .waiting => if u.notified then ({ u with phase := .drained }, []) else (u, [])
  | .drained =>
    ({ u with cell := { u.cell with state := .released }, phase := .removing (.ok ()) }, [])
  | .timedOut =>
    ({ u with cell := { u.cell with state := .released }, phase := .removing (.error .timeout) },
      [])
  | .removing result =>
    ({ u with listed := false, phase := .returned result }, [.returned result])
  | .returned _ => (u, [])

/-- The timeout of the wait runs out. -/
def timeoutStep : RegionUse :=
  if u.phase = .waiting ∧ u.notified = false then { u with phase := .timedOut } else u

end RegionUse

/-- The two steps of `try_inflight_inc` in a row are the atomic operation. -/
theorem handlerStep_tryInflightInc (t : MrTable) (e : MrEntry) (handler : ℕ) (permitted : Bool)
    (u : RegionUse) (hcell : u.cell = t.cells e.handle) :
    let first := u.handlerStep handler permitted .found
    let second := first.1.handlerStep handler permitted first.2.1
    (t.tryInflightInc e).map (fun t => t.cells e.handle) =
      if second.2.1 = .holding then some second.1.cell else none := by
  by_cases hactive : u.cell.state = .active
  · have hactive' : (t.cells e.handle).state = .active := by rwa [hcell] at hactive
    simp [RegionUse.handlerStep, MrTable.tryInflightInc, hactive', MrTable.inflightAdd, hcell]
  · have hactive' : (t.cells e.handle).state ≠ .active := by rwa [hcell] at hactive
    simp [RegionUse.handlerStep, hactive, MrTable.tryInflightInc, hactive']

/-- A region with `n` handlers. -/
abbrev RegionUsers (n : ℕ) := Threads.Pool (Fin n) RegionUse HandlerPhase

inductive UseTurn (n : ℕ)
  | handler (i : Fin n) (permitted : Bool)
  | deregister
  | timeout

namespace RegionUsers

variable {n : ℕ}

def new (n : ℕ) : RegionUsers n := ⟨.new, fun _ => .start⟩

def step (p : RegionUsers n) : UseTurn n → RegionUsers n × List UseEvent
  | .handler i permitted => p.turn i fun u phase => u.handlerStep i permitted phase
  | .deregister => ({ p with shared := p.shared.deregisterStep.1 }, p.shared.deregisterStep.2)
  | .timeout => ({ p with shared := p.shared.timeoutStep }, [])

/-- When the region is revoked, no handler is between the load that found it
Active and the increment, or between the last decrement and the notification. -/
def Settled (p : RegionUsers n) (turn : UseTurn n) : Prop :=
  turn = .deregister → p.shared.phase = .found →
    ∀ i, p.thread i ≠ .loaded ∧ p.thread i ≠ .decremented true

/-- The access does not follow the return of `Ok`. -/
def BeforeReturn (before : List UseEvent) (event : UseEvent) : Prop :=
  ∀ i, event = .access i → .returned (.ok ()) ∉ before

/-- From the revocation on, references are only given back. -/
structure Draining (p : RegionUsers n) (log : List UseEvent) : Prop where
  count : p.shared.cell.inflightRefs = p.count HandlerPhase.Holds
  revoked : p.shared.phase.Revoked → p.shared.cell.state ≠ .active
  settled : p.shared.phase.Revoked → ∀ i, p.thread i ≠ .loaded
  last : p.shared.phase.Revoked → ∀ i, p.thread i = .decremented true →
    p.shared.cell.inflightRefs = 0
  notified : p.shared.phase = .waiting → p.shared.notified = true →
    p.shared.cell.inflightRefs = 0
  drained : p.shared.phase.Drained → p.shared.cell.inflightRefs = 0
  returned : .returned (.ok ()) ∈ log → p.shared.phase = .returned (.ok ())
  safe : Runs.Justified BeforeReturn log

theorem draining_new : (new n).Draining [] := by
  constructor
  · simp [new, RegionUse.new, Threads.Pool.count, HandlerPhase.Holds]
  · intro h
    exact h.elim
  · intro h
    exact h.elim
  · intro h
    exact h.elim
  · intro h
    cases h
  · intro h
    exact h.elim
  · intro h
    cases h
  · exact Runs.justified_nil

variable {p : RegionUsers n} {log : List UseEvent}

theorem inflightRefs_pos (hcount : p.shared.cell.inflightRefs = p.count HandlerPhase.Holds)
    {i : Fin n} (hi : (p.thread i).Holds) : 0 < p.shared.cell.inflightRefs := by
  rw [hcount]
  exact_mod_cast Threads.Pool.count_pos hi

/-! ### Turns of a handler -/

section Handler
variable (i : Fin n) (permitted : Bool)

theorem step_handler_thread_ne {j : Fin n} (hj : j ≠ i) :
    (p.step (.handler i permitted)).1.thread j = p.thread j := Threads.Pool.turn_thread_ne hj

theorem step_handler {phase : HandlerPhase} (hphase : p.thread i = phase) :
    (p.step (.handler i permitted)).1.shared = (p.shared.handlerStep i permitted phase).1 ∧
      (p.step (.handler i permitted)).1.thread i =
        (p.shared.handlerStep i permitted phase).2.1 ∧
      (p.step (.handler i permitted)).2 = (p.shared.handlerStep i permitted phase).2.2 := by
  subst hphase
  exact ⟨rfl, Threads.Pool.turn_thread_self, rfl⟩

theorem step_handler_phase : (p.step (.handler i permitted)).1.shared.phase = p.shared.phase :=
  p.shared.handlerStep_phase i permitted (p.thread i)

theorem step_handler_state :
    (p.step (.handler i permitted)).1.shared.cell.state = p.shared.cell.state :=
  p.shared.handlerStep_state i permitted (p.thread i)

theorem inflightRefs_decrement (hphase : p.thread i = .accessed) :
    (p.step (.handler i permitted)).1.shared.cell.inflightRefs =
      p.shared.cell.inflightRefs - 1 := by
  rw [(step_handler i permitted hphase).1]
  rfl

theorem inflightRefs_notify {last : Bool} (hphase : p.thread i = .decremented last) :
    (p.step (.handler i permitted)).1.shared.cell.inflightRefs = p.shared.cell.inflightRefs := by
  rw [(step_handler i permitted hphase).1]
  rfl

/-- The count stays the number of the handlers that hold a reference. -/
theorem count_step_handler (h : p.shared.cell.inflightRefs = p.count HandlerPhase.Holds) :
    (p.step (.handler i permitted)).1.shared.cell.inflightRefs =
      (p.step (.handler i permitted)).1.count HandlerPhase.Holds := by
  obtain ⟨hshared, hthread, -⟩ := step_handler (p := p) i permitted rfl
  have hrefs := p.shared.handlerStep_refs i permitted (p.thread i)
  rw [← hshared, ← hthread] at hrefs
  have hcount : (p.step (.handler i permitted)).1.count HandlerPhase.Holds +
        (if (p.thread i).Holds then 1 else 0) =
      p.count HandlerPhase.Holds +
        (if ((p.step (.handler i permitted)).1.thread i).Holds then 1 else 0) :=
    Threads.Pool.count_turn
  split_ifs at hrefs hcount <;> omega

section
variable (h : p.Draining log)
include h

theorem Draining.safe_handler :
    Runs.Justified BeforeReturn (log ++ (p.step (.handler i permitted)).2) ∧
      (.returned (.ok ()) ∈ log ++ (p.step (.handler i permitted)).2 →
        p.shared.phase = .returned (.ok ())) := by
  cases hphase : p.thread i with
  | holding =>
    rw [(step_handler i permitted hphase).2.2]
    cases permitted with
    | false => simpa [RegionUse.handlerStep] using ⟨h.safe, h.returned⟩
    | true =>
      refine ⟨h.safe.concat ?_, by simpa [RegionUse.handlerStep] using h.returned⟩
      intro j _ hreturned
      have hpos := inflightRefs_pos h.count (i := i) (Or.inl hphase)
      have hzero := h.drained (by rw [h.returned hreturned]; trivial)
      omega
  | _ =>
    rw [(step_handler i permitted hphase).2.2]
    simpa [RegionUse.handlerStep] using ⟨h.safe, h.returned⟩

/-- What has to be checked of a turn: the state the handler is in afterwards, and the
notification. -/
theorem Draining.of_handler
    (hloaded : p.shared.phase.Revoked → (p.step (.handler i permitted)).1.thread i ≠ .loaded)
    (hlast : p.shared.phase.Revoked →
      (p.step (.handler i permitted)).1.thread i = .decremented true →
        (p.step (.handler i permitted)).1.shared.cell.inflightRefs = 0)
    (hzero : p.shared.phase.Revoked → p.shared.cell.inflightRefs = 0 →
      (p.step (.handler i permitted)).1.shared.cell.inflightRefs = 0)
    (hnotified : p.shared.phase = .waiting →
      (p.step (.handler i permitted)).1.shared.notified = true →
        p.shared.cell.inflightRefs = 0) :
    (p.step (.handler i permitted)).1.Draining (log ++ (p.step (.handler i permitted)).2) := by
  obtain ⟨hsafe, hreturned⟩ := h.safe_handler i permitted
  constructor
  · exact count_step_handler i permitted h.count
  · rw [step_handler_phase, step_handler_state]
    exact h.revoked
  · rw [step_handler_phase]
    intro hrevoked j
    by_cases hj : j = i
    · subst hj
      exact hloaded hrevoked
    · rw [step_handler_thread_ne i permitted hj]
      exact h.settled hrevoked j
  · rw [step_handler_phase]
    intro hrevoked j hdec
    by_cases hj : j = i
    · subst hj
      exact hlast hrevoked hdec
    · rw [step_handler_thread_ne i permitted hj] at hdec
      exact hzero hrevoked (h.last hrevoked j hdec)
  · rw [step_handler_phase]
    intro hwaiting hnot
    exact hzero (by rw [hwaiting]; trivial) (hnotified hwaiting hnot)
  · rw [step_handler_phase]
    intro hdrained
    exact hzero hdrained.revoked (h.drained hdrained)
  · rw [step_handler_phase]
    exact hreturned
  · exact hsafe

theorem Draining.quiet {phase : HandlerPhase} (hphase : p.thread i = phase)
    (hsame : (p.shared.handlerStep i permitted phase).1 = p.shared)
    (hloaded : p.shared.phase.Revoked → (p.shared.handlerStep i permitted phase).2.1 ≠ .loaded)
    (hlast : (p.shared.handlerStep i permitted phase).2.1 ≠ .decremented true) :
    (p.step (.handler i permitted)).1.Draining (log ++ (p.step (.handler i permitted)).2) := by
  obtain ⟨hshared, hthread, -⟩ := step_handler i permitted hphase
  rw [hsame] at hshared
  apply h.of_handler i permitted
  · rw [hthread]
    exact hloaded
  · intro _ hdec
    exact absurd (hthread.symm.trans hdec) hlast
  · rw [hshared]
    exact fun _ hzero => hzero
  · rw [hshared]
    exact h.notified

theorem Draining.increment (hphase : p.thread i = .loaded) :
    (p.step (.handler i permitted)).1.Draining (log ++ (p.step (.handler i permitted)).2) := by
  have hactive : ¬ p.shared.phase.Revoked := fun hrevoked => h.settled hrevoked i hphase
  apply h.of_handler i permitted
  · exact fun hrevoked => absurd hrevoked hactive
  · exact fun hrevoked => absurd hrevoked hactive
  · exact fun hrevoked => absurd hrevoked hactive
  · intro hwaiting
    exact absurd (by rw [hwaiting]; trivial) hactive

/-- The decrement: `last` tells that the count is zero afterwards. -/
theorem Draining.decrement (hphase : p.thread i = .accessed) :
    (p.step (.handler i permitted)).1.Draining (log ++ (p.step (.handler i permitted)).2) := by
  obtain ⟨hshared, hthread, -⟩ := step_handler i permitted hphase
  have hpos : 0 < p.shared.cell.inflightRefs := inflightRefs_pos h.count (i := i) (Or.inr hphase)
  have hrefs := inflightRefs_decrement i permitted hphase
  apply h.of_handler i permitted
  · rw [hthread]
    simp [RegionUse.handlerStep]
  · rw [hthread, hrefs]
    intro _ hlast
    simp only [RegionUse.handlerStep, HandlerPhase.decremented.injEq, beq_iff_eq] at hlast
    omega
  · intro _ hzero
    omega
  · rw [hshared]
    exact h.notified

theorem Draining.notify {last : Bool} (hphase : p.thread i = .decremented last) :
    (p.step (.handler i permitted)).1.Draining (log ++ (p.step (.handler i permitted)).2) := by
  obtain ⟨hshared, hthread, -⟩ := step_handler i permitted hphase
  have hrefs := inflightRefs_notify i permitted hphase
  apply h.of_handler i permitted
  · rw [hthread]
    simp [RegionUse.handlerStep]
  · rw [hthread]
    simp [RegionUse.handlerStep]
  · rw [hrefs]
    exact fun _ hzero => hzero
  · rw [hshared]
    intro hwaiting hnotified
    simp only [RegionUse.handlerStep, Bool.or_eq_true, Bool.and_eq_true] at hnotified
    rcases hnotified with hold | ⟨hlast, -⟩
    · exact h.notified hwaiting hold
    · exact h.last (by rw [hwaiting]; trivial) i (by rw [hphase, hlast])

theorem Draining.handler :
    (p.step (.handler i permitted)).1.Draining (log ++ (p.step (.handler i permitted)).2) := by
  cases hphase : p.thread i with
  | start =>
    apply h.quiet i permitted hphase rfl
    all_goals simp only [RegionUse.handlerStep]
    all_goals split_ifs <;> simp
  | found =>
    have hstate := h.revoked
    apply h.quiet i permitted hphase rfl
    all_goals simp only [RegionUse.handlerStep]
    all_goals split_ifs <;> simp_all
  | loaded => exact h.increment i permitted hphase
  | holding =>
    apply h.quiet i permitted hphase rfl
    all_goals simp [RegionUse.handlerStep]
  | accessed => exact h.decrement i permitted hphase
  | decremented last => exact h.notify i permitted hphase
  | done =>
    apply h.quiet i permitted hphase rfl
    all_goals simp [RegionUse.handlerStep]

end

end Handler

/-! ### Turns of `deregister_async` -/

section
variable (h : p.Draining log)
include h

/-- What has to be checked of a step that leaves the handlers and the count as they
are. -/
theorem Draining.of_shared {u : RegionUse} {events : List UseEvent}
    (hrefs : u.cell.inflightRefs = p.shared.cell.inflightRefs)
    (hstate : u.phase.Revoked → u.cell.state ≠ .active)
    (hsettled : u.phase.Revoked → p.shared.phase.Revoked ∨
      ∀ i, p.thread i ≠ .loaded ∧ p.thread i ≠ .decremented true)
    (hnotified : u.phase = .waiting → u.notified = true → p.shared.cell.inflightRefs = 0)
    (hdrained : u.phase.Drained → p.shared.cell.inflightRefs = 0)
    (hreturned : .returned (.ok ()) ∈ log ++ events → u.phase = .returned (.ok ()))
    (hevents : ∀ i, .access i ∉ events) :
    Draining { p with shared := u } (log ++ events) := by
  constructor
  · rw [hrefs]
    exact h.count
  · exact hstate
  · intro hrevoked i
    rcases hsettled hrevoked with hold | hnew
    · exact h.settled hold i
    · exact (hnew i).1
  · intro hrevoked i hlast
    rw [hrefs]
    rcases hsettled hrevoked with hold | hnew
    · exact h.last hold i hlast
    · exact absurd hlast (hnew i).2
  · rw [hrefs]
    exact hnotified
  · rw [hrefs]
    exact hdrained
  · exact hreturned
  · apply h.safe.append
    rintro mid event after rfl i rfl
    exact absurd (by simp) (hevents i)

theorem Draining.not_returned (hrunning : p.shared.phase ≠ .returned (.ok ())) :
    .returned (.ok ()) ∉ log :=
  fun hret => hrunning (h.returned hret)

theorem Draining.advance {u : RegionUse} (hrevoked : p.shared.phase.Revoked)
    (hrunning : p.shared.phase ≠ .returned (.ok ()))
    (hrefs : u.cell.inflightRefs = p.shared.cell.inflightRefs)
    (hstate : u.cell.state = .active → p.shared.cell.state = .active)
    (hnotified : u.phase = .waiting → u.notified = true → p.shared.cell.inflightRefs = 0)
    (hdrained : u.phase.Drained → p.shared.cell.inflightRefs = 0) :
    Draining { p with shared := u } (log ++ []) := by
  apply h.of_shared hrefs
  · exact fun _ hactive => h.revoked hrevoked (hstate hactive)
  · exact fun _ => Or.inl hrevoked
  · exact hnotified
  · exact hdrained
  · rw [List.append_nil]
    exact fun hret => absurd hret (h.not_returned hrunning)
  · simp

/-- The exchange to Revoking, with no handler caught between two steps. -/
theorem Draining.revoke (hsettled : p.Settled .deregister) (hphase : p.shared.phase = .found) :
    Draining { p with shared := { p.shared with
      cell := { p.shared.cell with state := .revoking }, phase := .revoking } } (log ++ []) := by
  have hlog := h.not_returned (by simp [hphase])
  apply h.of_shared
  · rfl
  · simp
  · exact fun _ => Or.inr (hsettled rfl hphase)
  · simp
  · exact False.elim
  · simp [hlog]
  · simp

theorem Draining.remove {result : Except UbError Unit}
    (hphase : p.shared.phase = .removing result) :
    Draining { p with shared := { p.shared with listed := false, phase := .returned result } }
      (log ++ [.returned result]) := by
  have hlog := h.not_returned (by simp [hphase])
  have hrevoked : p.shared.phase.Revoked := by rw [hphase]; trivial
  apply h.of_shared
  · rfl
  · exact fun _ => h.revoked hrevoked
  · exact fun _ => Or.inl hrevoked
  · simp
  · intro hdrained
    apply h.drained
    rw [hphase]
    cases result with
    | ok => trivial
    | error => exact hdrained.elim
  · intro hret
    rcases List.mem_append.mp hret with hold | hnew
    · exact absurd hold hlog
    · rw [UseEvent.returned.inj (List.mem_singleton.mp hnew)]
  · simp

theorem Draining.deregister (hsettled : p.Settled .deregister) :
    (p.step .deregister).1.Draining (log ++ (p.step .deregister).2) := by
  have hnonneg : 0 ≤ p.shared.cell.inflightRefs := by
    rw [h.count]
    exact Int.natCast_nonneg _
  simp only [step, RegionUse.deregisterStep]
  cases hphase : p.shared.phase with
  | start =>
    have hlog := h.not_returned (by simp [hphase])
    dsimp only
    split_ifs
    · apply h.of_shared <;> simp [DeregisterPhase.Revoked, DeregisterPhase.Drained, hlog]
    · apply h.of_shared <;> simp [DeregisterPhase.Revoked, DeregisterPhase.Drained, hlog]
  | found =>
    have hlog := h.not_returned (by simp [hphase])
    dsimp only
    split_ifs
    · exact h.revoke hsettled hphase
    · apply h.of_shared <;> simp [DeregisterPhase.Revoked, DeregisterPhase.Drained, hlog]
  | revoking =>
    apply h.advance <;> simp [hphase, DeregisterPhase.Revoked, DeregisterPhase.Drained]
  | announced =>
    apply h.advance
    · simp [hphase, DeregisterPhase.Revoked]
    · simp [hphase]
    · rfl
    · exact id
    · dsimp only
      split_ifs <;> simp
    · dsimp only
      split_ifs with hpos
      · exact False.elim
      · intro _
        omega
  | checking =>
    apply h.advance
    · simp [hphase, DeregisterPhase.Revoked]
    · simp [hphase]
    · rfl
    · exact id
    · dsimp only
      split_ifs <;> simp
    · dsimp only
      split_ifs with hzero
      · exact fun _ => hzero
      · exact False.elim
  | subscribing =>
    apply h.advance <;> simp [hphase, DeregisterPhase.Revoked, DeregisterPhase.Drained]
  | waiting =>
    dsimp only
    split_ifs with hnotified
    · apply h.advance
      · simp [hphase, DeregisterPhase.Revoked]
      · simp [hphase]
      · rfl
      · exact id
      · simp
      · exact fun _ => h.notified hphase hnotified
    · rw [List.append_nil]
      exact h
  | drained =>
    have hzero := h.drained (by rw [hphase]; trivial)
    apply h.advance <;> simp [hphase, DeregisterPhase.Revoked, hzero]
  | timedOut =>
    apply h.advance <;> simp [hphase, DeregisterPhase.Revoked, DeregisterPhase.Drained]
  | removing result => exact h.remove hphase
  | returned result =>
    rw [List.append_nil]
    exact h

theorem Draining.timeout :
    (p.step .timeout).1.Draining (log ++ (p.step .timeout).2) := by
  simp only [step, RegionUse.timeoutStep]
  split_ifs with hwaiting
  · apply h.advance <;> simp [hwaiting, DeregisterPhase.Revoked, DeregisterPhase.Drained]
  · rw [List.append_nil]
    exact h

end

/-- If no handler is caught between two steps when the region is revoked, no
handler accesses the device after `deregister_async` has returned `Ok`. -/
theorem no_access_after_deregister (n : ℕ) (turns : List (UseTurn n))
    (h : Runs.Meets step (fun p _ => p.Settled) (new n) [] turns) :
    Runs.Justified BeforeReturn (Runs.run step (new n) turns).2 := by
  have hstep : ∀ (p : RegionUsers n) log turn, p.Draining log → p.Settled turn →
      (p.step turn).1.Draining (log ++ (p.step turn).2) := by
    intro p log turn hp hsettled
    cases turn with
    | handler i permitted => exact hp.handler i permitted
    | deregister => exact hp.deregister hsettled
    | timeout => exact hp.timeout
  exact (Runs.run_invariant hstep draining_new h).safe

/-- The only handler takes its reference before the revocation and gives it back
while `deregister_async` waits. -/
def drainedTurns : List (UseTurn 1) :=
  [.handler 0 true, .handler 0 true, .handler 0 true, .deregister, .deregister, .deregister,
    .deregister, .deregister, .deregister, .handler 0 true, .handler 0 true, .handler 0 true,
    .deregister, .deregister, .deregister]

theorem no_access_after_deregister_drained :
    Runs.Justified BeforeReturn (Runs.run step (new 1) drainedTurns).2 ∧
      (Runs.run step (new 1) drainedTurns).2 = [.access 0, .returned (.ok ())] := by
  refine ⟨no_access_after_deregister 1 drainedTurns ?_, rfl⟩
  refine ⟨?_, ?_, ?_, ?_, ?_, ?_, ?_, ?_, ?_, ?_, ?_, ?_, ?_, ?_, ?_, trivial⟩
  -- the fifth turn revokes the region; it finds the handler holding its reference
  case refine_5 =>
    intro _ _ i
    obtain rfl : i = 0 := Subsingleton.elim i 0
    decide
  all_goals
    intro _ hphase
    exact absurd hphase (by decide)

/-- The handler has seen the region Active but not counted itself when the count is
checked. -/
theorem access_after_deregister :
    (Runs.run step (new 1)
      [.handler 0 true, .handler 0 true, .deregister, .deregister, .deregister, .deregister,
        .deregister, .deregister, .handler 0 true, .handler 0 true]).2 =
      [.returned (.ok ()), .access 0] ∧
    ¬ Runs.Justified BeforeReturn (Runs.run step (new 1)
      [.handler 0 true, .handler 0 true, .deregister, .deregister, .deregister, .deregister,
        .deregister, .deregister, .handler 0 true, .handler 0 true]).2 := by
  have hlog : (Runs.run step (new 1)
      [.handler 0 true, .handler 0 true, .deregister, .deregister, .deregister, .deregister,
        .deregister, .deregister, .handler 0 true, .handler 0 true]).2 =
      [.returned (.ok ()), .access 0] := rfl
  refine ⟨hlog, ?_⟩
  rw [hlog]
  intro h
  exact h [.returned (.ok ())] (.access 0) [] rfl 0 rfl List.mem_cons_self

end RegionUsers
end UniBus
