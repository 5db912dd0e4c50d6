import UniBus.Core.Deregistration

/-!
# The timeout of a deregistration

`wait_inflight_zero` loads the count and then creates the `notified()` future. A
`notify_waiters` between the two reaches nobody. The log records the count at the
creation of the future and at the timeout.
-/
namespace UniBus

/-- The timeout of the wait has run out. -/
def DeregisterPhase.Expired (phase : DeregisterPhase) : Prop :=
  phase = .timedOut ∨ phase = .removing (.error .timeout) ∨ phase = .returned (.error .timeout)

inductive DrainEvent
  /-- The `notified()` future is created; `notifying` if the last handler is between
  its `fetch_sub` and its `notify_waiters`. -/
  | subscribed (refs : ℤ) (notifying : Bool)
  | expired (refs : ℤ) (notifying : Bool)
  | use (event : UseEvent)
  deriving DecidableEq

namespace RegionUsers

variable {n : ℕ}

def holding (n : ℕ) : RegionUsers n :=
  ⟨⟨⟨.active, n⟩, true, .start, false⟩, fun _ => .holding⟩

/-- A handler has given back the last reference and not yet notified the waiters. -/
def Notifying (p : RegionUsers n) : Prop := ∃ i, p.thread i = .decremented true

instance (p : RegionUsers n) : Decidable p.Notifying := inferInstanceAs (Decidable (∃ _, _))

/-- What is recorded of a turn beside its own events. -/
def marks (p : RegionUsers n) : UseTurn n → List DrainEvent
  | .handler _ _ => []
  | .deregister =>
    if p.shared.phase = .subscribing then
      [.subscribed p.shared.cell.inflightRefs (decide p.Notifying)]
    else []
  | .timeout =>
    if p.shared.phase = .waiting ∧ p.shared.notified = false then
      [.expired p.shared.cell.inflightRefs (decide p.Notifying)]
    else []

/-- A turn and its record. -/
def observe (p : RegionUsers n) (turn : UseTurn n) : RegionUsers n × List DrainEvent :=
  ((p.step turn).1, p.marks turn ++ (p.step turn).2.map .use)

/-- The wake-up was lost: at the creation of the future the last reference is given
back and the waiters are notified. -/
abbrev lostWakeUp : DrainEvent := .subscribed 0 false

abbrev timeoutReturned : DrainEvent := .use (.returned (.error .timeout))

/-- References are only given back, and the waiter is woken by the last of them or
has come too late. -/
structure Drains (p : RegionUsers n) (log : List DrainEvent) : Prop where
  count : p.shared.cell.inflightRefs = p.count HandlerPhase.Holds
  entered : ∀ i, p.thread i ≠ .start ∧ p.thread i ≠ .found ∧ p.thread i ≠ .loaded
  last : p.Notifying → p.shared.cell.inflightRefs = 0
  waiting : p.shared.phase = .waiting → p.shared.notified = false →
    p.shared.cell.inflightRefs = 0 → p.Notifying ∨ lostWakeUp ∈ log
  lost : lostWakeUp ∈ log → p.shared.cell.inflightRefs = 0
  expired : ∀ refs notifying, .expired refs notifying ∈ log →
    p.shared.phase.Expired ∧ (0 < refs ↔ lostWakeUp ∉ log ∧ notifying = false)
  fired : p.shared.phase.Expired → ∃ refs notifying, .expired refs notifying ∈ log
  returned : timeoutReturned ∈ log → ∃ refs notifying, .expired refs notifying ∈ log

theorem drains_holding : (holding n).Drains [] := by
  constructor
  · simp [holding, Threads.Pool.count, HandlerPhase.Holds]
  · intro i
    simp [holding]
  · rintro ⟨i, hi⟩
    cases hi
  · intro h
    cases h
  · intro h
    cases h
  · intro _ _ h
    cases h
  · intro h
    rcases h with h | h | h <;> cases h
  · intro h
    cases h

variable {p : RegionUsers n} {log : List DrainEvent}

theorem Drains.nonneg (h : p.Drains log) : 0 ≤ p.shared.cell.inflightRefs := by
  rw [h.count]
  exact Int.natCast_nonneg _

theorem mem_of_mem_append_use {log : List DrainEvent} {events : List UseEvent} {mark : DrainEvent}
    (hmark : ∀ event, mark ≠ .use event) (h : mark ∈ log ++ events.map .use) : mark ∈ log := by
  rcases List.mem_append.mp h with hold | hnew
  · exact hold
  · obtain ⟨event, -, heq⟩ := List.mem_map.mp hnew
    exact absurd heq.symm (hmark event)

/-! ### Turns of a handler -/

section Handler
variable (i : Fin n) (permitted : Bool)

/-- What has to be checked of a turn: where the handler is afterwards, and the
wake-up. -/
theorem Drains.of_handler (h : p.Drains log)
    (hentered : ∀ phase ∈ [HandlerPhase.start, .found, .loaded],
      (p.step (.handler i permitted)).1.thread i ≠ phase)
    (hlast : (p.step (.handler i permitted)).1.thread i = .decremented true →
      (p.step (.handler i permitted)).1.shared.cell.inflightRefs = 0)
    (hzero : p.shared.cell.inflightRefs = 0 →
      (p.step (.handler i permitted)).1.shared.cell.inflightRefs = 0)
    (hwaiting : p.shared.phase = .waiting →
      (p.step (.handler i permitted)).1.shared.notified = false →
      (p.step (.handler i permitted)).1.shared.cell.inflightRefs = 0 →
        (p.step (.handler i permitted)).1.Notifying ∨ lostWakeUp ∈ log)
    (hevents : .returned (.error .timeout) ∉ (p.step (.handler i permitted)).2) :
    (p.observe (.handler i permitted)).1.Drains (log ++ (p.observe (.handler i permitted)).2) := by
  have hlost : lostWakeUp ∈ log ++ (p.step (.handler i permitted)).2.map .use ↔
      lostWakeUp ∈ log :=
    ⟨mem_of_mem_append_use (by simp), fun hold => List.mem_append_left _ hold⟩
  simp only [observe, marks, List.nil_append]
  constructor
  · exact count_step_handler i permitted h.count
  · intro j
    by_cases hj : j = i
    · subst hj
      exact ⟨hentered _ (by simp), hentered _ (by simp), hentered _ (by simp)⟩
    · rw [step_handler_thread_ne i permitted hj]
      exact h.entered j
  · rintro ⟨j, hdec⟩
    by_cases hj : j = i
    · subst hj
      exact hlast hdec
    · rw [step_handler_thread_ne i permitted hj] at hdec
      exact hzero (h.last ⟨j, hdec⟩)
  · rw [step_handler_phase, hlost]
    exact hwaiting
  · rw [hlost]
    exact fun hold => hzero (h.lost hold)
  · intro refs notifying hmem
    rw [step_handler_phase, hlost]
    exact h.expired refs notifying (mem_of_mem_append_use (by simp) hmem)
  · rw [step_handler_phase]
    intro hexpired
    obtain ⟨refs, notifying, hmem⟩ := h.fired hexpired
    exact ⟨refs, notifying, List.mem_append_left _ hmem⟩
  · intro hret
    rcases List.mem_append.mp hret with hold | hnew
    · obtain ⟨refs, notifying, hmem⟩ := h.returned hold
      exact ⟨refs, notifying, List.mem_append_left _ hmem⟩
    · obtain ⟨event, hevent, heq⟩ := List.mem_map.mp hnew
      rw [DrainEvent.use.inj heq] at hevent
      exact absurd hevent hevents

theorem Drains.access (h : p.Drains log) (hphase : p.thread i = .holding) :
    (p.observe (.handler i permitted)).1.Drains (log ++ (p.observe (.handler i permitted)).2) := by
  obtain ⟨hshared, hthread, hlog⟩ := step_handler i permitted hphase
  have hpos : 0 < p.shared.cell.inflightRefs := inflightRefs_pos h.count (i := i) (Or.inl hphase)
  have hrefs : (p.step (.handler i permitted)).1.shared.cell.inflightRefs =
      p.shared.cell.inflightRefs := by
    rw [hshared]
    rfl
  apply h.of_handler i permitted
  · rw [hthread]
    simp [RegionUse.handlerStep]
  · rw [hthread]
    simp [RegionUse.handlerStep]
  · rw [hrefs]
    exact id
  · rw [hrefs]
    omega
  · rw [hlog]
    cases permitted <;> simp [RegionUse.handlerStep]

theorem Drains.decrement (h : p.Drains log) (hphase : p.thread i = .accessed) :
    (p.observe (.handler i permitted)).1.Drains (log ++ (p.observe (.handler i permitted)).2) := by
  obtain ⟨-, hthread, hlog⟩ := step_handler i permitted hphase
  have hpos : 0 < p.shared.cell.inflightRefs := inflightRefs_pos h.count (i := i) (Or.inr hphase)
  have hrefs := inflightRefs_decrement i permitted hphase
  apply h.of_handler i permitted
  · rw [hthread]
    simp [RegionUse.handlerStep]
  · rw [hthread, hrefs]
    intro hlast
    simp only [RegionUse.handlerStep, HandlerPhase.decremented.injEq, beq_iff_eq] at hlast
    omega
  · omega
  · rw [hrefs]
    intro _ _ hzero
    have hone : p.shared.cell.inflightRefs = 1 := by omega
    exact Or.inl ⟨i, by rw [hthread]; simp [RegionUse.handlerStep, hone]⟩
  · simp [hlog, RegionUse.handlerStep]

theorem Drains.notify (h : p.Drains log) {last : Bool} (hphase : p.thread i = .decremented last) :
    (p.observe (.handler i permitted)).1.Drains (log ++ (p.observe (.handler i permitted)).2) := by
  obtain ⟨hshared, hthread, hlog⟩ := step_handler i permitted hphase
  have hrefs := inflightRefs_notify i permitted hphase
  apply h.of_handler i permitted
  · rw [hthread]
    simp [RegionUse.handlerStep]
  · rw [hthread]
    simp [RegionUse.handlerStep]
  · rw [hrefs]
    exact id
  · rw [hshared]
    intro hwaiting hnotified hzero
    simp only [RegionUse.handlerStep, hwaiting, beq_self_eq_true, Bool.and_true,
      Bool.or_eq_false_iff] at hnotified
    obtain ⟨hnotified, rfl⟩ := hnotified
    rcases h.waiting hwaiting hnotified hzero with ⟨j, hj⟩ | hlost
    · -- the handler that notifies the waiters is another one
      have hne : j ≠ i := by
        rintro rfl
        rw [hphase] at hj
        cases hj
      exact Or.inl ⟨j, by rw [step_handler_thread_ne i permitted hne, hj]⟩
    · exact Or.inr hlost
  · simp [hlog, RegionUse.handlerStep]

theorem Drains.handler (h : p.Drains log) :
    (p.observe (.handler i permitted)).1.Drains (log ++ (p.observe (.handler i permitted)).2) := by
  obtain ⟨hstart, hfound, hloaded⟩ := h.entered i
  cases hphase : p.thread i with
  | start => exact absurd hphase hstart
  | found => exact absurd hphase hfound
  | loaded => exact absurd hphase hloaded
  | holding => exact h.access i permitted hphase
  | accessed => exact h.decrement i permitted hphase
  | decremented last => exact h.notify i permitted hphase
  | done =>
    have hself : p.step (.handler i permitted) = (p, []) := by
      rw [step]
      apply Threads.Pool.turn_eq_self
      rw [hphase]
      rfl
    simp only [observe, hself, marks, List.map_nil, List.append_nil]
    exact h

end Handler

/-! ### Turns of `deregister_async` -/

section
variable (h : p.Drains log)
include h

/-- What has to be checked of a step before the timeout that leaves the handlers and
the count as they are. -/
theorem Drains.of_shared {u : RegionUse} {events : List DrainEvent}
    (hrefs : u.cell.inflightRefs = p.shared.cell.inflightRefs)
    (hwaiting : u.phase = .waiting → u.notified = false → p.shared.cell.inflightRefs = 0 →
      p.Notifying ∨ lostWakeUp ∈ log ++ events)
    (hlost : lostWakeUp ∈ events → p.shared.cell.inflightRefs = 0)
    (hexpired : ∀ refs notifying, .expired refs notifying ∈ log ++ events →
      u.phase.Expired ∧ (0 < refs ↔ lostWakeUp ∉ log ++ events ∧ notifying = false))
    (hfired : u.phase.Expired → ∃ refs notifying, .expired refs notifying ∈ log ++ events)
    (hreturned : timeoutReturned ∈ events → p.shared.phase.Expired) :
    Drains { p with shared := u } (log ++ events) := by
  constructor
  · rw [hrefs]
    exact h.count
  · exact h.entered
  · rw [hrefs]
    exact h.last
  · rw [hrefs]
    exact hwaiting
  · rw [hrefs]
    intro hmem
    rcases List.mem_append.mp hmem with hold | hnew
    · exact h.lost hold
    · exact hlost hnew
  · exact hexpired
  · exact hfired
  · intro hmem
    have hold : ∃ refs notifying, .expired refs notifying ∈ log := by
      rcases List.mem_append.mp hmem with hold | hnew
      · exact h.returned hold
      · exact h.fired (hreturned hnew)
    obtain ⟨refs, notifying, hold⟩ := hold
    exact ⟨refs, notifying, List.mem_append_left _ hold⟩

theorem Drains.advance {u : RegionUse} {events : List UseEvent}
    (hrefs : u.cell.inflightRefs = p.shared.cell.inflightRefs) (hwaiting : u.phase ≠ .waiting)
    (hexpired : u.phase.Expired ↔ p.shared.phase.Expired)
    (hreturned : .returned (.error .timeout) ∈ events → p.shared.phase.Expired) :
    Drains { p with shared := u } (log ++ events.map .use) := by
  have hlost : lostWakeUp ∈ log ++ events.map .use ↔ lostWakeUp ∈ log :=
    ⟨mem_of_mem_append_use (by simp), fun hold => List.mem_append_left _ hold⟩
  apply h.of_shared hrefs
  · exact fun hw => absurd hw hwaiting
  · simp
  · intro refs notifying hmem
    rw [hexpired, hlost]
    exact h.expired refs notifying (mem_of_mem_append_use (by simp) hmem)
  · intro hu
    obtain ⟨refs, notifying, hold⟩ := h.fired (hexpired.mp hu)
    exact ⟨refs, notifying, List.mem_append_left _ hold⟩
  · intro hnew
    obtain ⟨event, hevent, heq⟩ := List.mem_map.mp hnew
    rw [DrainEvent.use.inj heq] at hevent
    exact hreturned hevent

/-- The creation of the future: a count of zero that nobody is going to announce is
recorded as a lost wake-up. -/
theorem Drains.subscribe (hphase : p.shared.phase = .subscribing) :
    Drains { p with shared := { p.shared with phase := .waiting, notified := false } }
      (log ++ [.subscribed p.shared.cell.inflightRefs (decide p.Notifying)]) := by
  apply h.of_shared
  · rfl
  · intro _ _ hzero
    by_cases hnotifying : p.Notifying
    · exact Or.inl hnotifying
    · exact Or.inr (by simp [hzero, hnotifying])
  · intro hmem
    rw [List.mem_singleton] at hmem
    exact (DrainEvent.subscribed.inj hmem).1.symm
  · intro refs notifying hmem
    have hold : .expired refs notifying ∈ log := by simpa using hmem
    have hexpired := (h.expired refs notifying hold).1
    simp [hphase, DeregisterPhase.Expired] at hexpired
  · simp [DeregisterPhase.Expired]
  · simp

theorem Drains.deregister :
    (p.observe .deregister).1.Drains (log ++ (p.observe .deregister).2) := by
  by_cases hsubscribing : p.shared.phase = .subscribing
  · simp only [observe, marks, step, RegionUse.deregisterStep, hsubscribing, if_true]
    exact h.subscribe hsubscribing
  simp only [observe, marks, step, RegionUse.deregisterStep, hsubscribing, if_false,
    List.nil_append]
  cases hphase : p.shared.phase with
  | start =>
    dsimp only
    split_ifs
    all_goals apply h.advance <;> simp [hphase, DeregisterPhase.Expired]
  | found =>
    dsimp only
    split_ifs
    all_goals apply h.advance <;> simp [hphase, DeregisterPhase.Expired]
  | revoking => apply h.advance <;> simp [hphase, DeregisterPhase.Expired]
  | announced =>
    dsimp only
    split_ifs
    all_goals apply h.advance <;> simp [hphase, DeregisterPhase.Expired]
  | checking =>
    dsimp only
    split_ifs
    all_goals apply h.advance <;> simp [hphase, DeregisterPhase.Expired]
  | subscribing => exact absurd hphase hsubscribing
  | waiting =>
    dsimp only
    split_ifs
    · apply h.advance <;> simp [hphase, DeregisterPhase.Expired]
    · simpa using h
  | drained => apply h.advance <;> simp [hphase, DeregisterPhase.Expired]
  | timedOut => apply h.advance <;> simp [hphase, DeregisterPhase.Expired]
  | removing result => apply h.advance <;> simp +contextual [hphase, DeregisterPhase.Expired]
  | returned result => simpa using h

/-- The timeout: without a wake-up, the count is zero exactly if the last handler is
before its notification or the notification came before the future. -/
theorem Drains.expire (hphase : p.shared.phase = .waiting) (hnotified : p.shared.notified = false) :
    Drains { p with shared := { p.shared with phase := .timedOut } }
      (log ++ [.expired p.shared.cell.inflightRefs (decide p.Notifying)]) := by
  have hpos : 0 < p.shared.cell.inflightRefs ↔ lostWakeUp ∉ log ∧ ¬ p.Notifying := by
    constructor
    · intro hpos
      constructor
      · intro hlost
        exact absurd (h.lost hlost) hpos.ne'
      · intro hnotifying
        exact absurd (h.last hnotifying) hpos.ne'
    · rintro ⟨hlost, hnotifying⟩
      have hnonneg := h.nonneg
      have hne : p.shared.cell.inflightRefs ≠ 0 := by
        intro hzero
        rcases h.waiting hphase hnotified hzero with hsome | hsome
        · exact hnotifying hsome
        · exact hlost hsome
      omega
  apply h.of_shared
  · rfl
  · simp
  · simp
  · intro refs notifying hmem
    refine ⟨Or.inl rfl, ?_⟩
    rcases List.mem_append.mp hmem with hold | hnew
    · have hexpired := (h.expired refs notifying hold).1
      simp [hphase, DeregisterPhase.Expired] at hexpired
    · obtain ⟨rfl, rfl⟩ := DrainEvent.expired.inj (List.mem_singleton.mp hnew)
      simpa using hpos
  · exact fun _ => ⟨_, _, List.mem_append_right _ List.mem_cons_self⟩
  · simp

theorem Drains.timeout :
    (p.observe .timeout).1.Drains (log ++ (p.observe .timeout).2) := by
  simp only [observe, marks, step, RegionUse.timeoutStep]
  split_ifs with hwaiting
  · exact h.expire hwaiting.1 hwaiting.2
  · simpa using h

end

theorem drains_run (turns : List (UseTurn n)) :
    (Runs.run observe (holding n) turns).1.Drains (Runs.run observe (holding n) turns).2 := by
  have hstep : ∀ (p : RegionUsers n) log turn, p.Drains log →
      (p.observe turn).1.Drains (log ++ (p.observe turn).2) := by
    intro p log turn h
    cases turn with
    | handler i permitted => exact h.handler i permitted
    | deregister => exact h.deregister
    | timeout => exact h.timeout
  exact Runs.run_always hstep drains_holding turns

/-- `Err(Timeout)` is returned after the timeout has run out, and the count is
positive at that moment exactly if the `notified()` future was created while a
wake-up was still to come and no handler is between its `fetch_sub` and its
`notify_waiters`. -/
theorem timeout_in_use_iff (n : ℕ) (turns : List (UseTurn n)) :
    let log := (Runs.run observe (holding n) turns).2
    (timeoutReturned ∈ log → ∃ refs notifying, .expired refs notifying ∈ log) ∧
      ((timeoutReturned ∈ log → ∀ refs notifying, .expired refs notifying ∈ log → 0 < refs) ↔
        (timeoutReturned ∈ log → lostWakeUp ∉ log ∧
          ∀ refs notifying, .expired refs notifying ∈ log → notifying = false)) := by
  have h := drains_run turns
  refine ⟨h.returned, ?_⟩
  constructor
  · intro hpos hret
    obtain ⟨refs, notifying, hmem⟩ := h.returned hret
    have hlost := ((h.expired refs notifying hmem).2.mp (hpos hret refs notifying hmem)).1
    refine ⟨hlost, ?_⟩
    intro refs notifying hmem
    exact ((h.expired refs notifying hmem).2.mp (hpos hret refs notifying hmem)).2
  · intro hcond hret refs notifying hmem
    obtain ⟨hlost, hnotifying⟩ := hcond hret
    exact (h.expired refs notifying hmem).2.mpr ⟨hlost, hnotifying refs notifying hmem⟩

/-- The only handler gives its reference back and notifies the waiters after the
count was loaded and before the future is created. -/
theorem drained_region_times_out :
    (Runs.run observe (holding 1)
      [.deregister, .deregister, .deregister, .deregister, .deregister, .handler 0 true,
        .handler 0 true, .handler 0 true, .deregister, .timeout, .deregister, .deregister]).2 =
      [.use (.access 0), .subscribed 0 false, .expired 0 false,
        .use (.returned (.error .timeout))] := by
  decide

end RegionUsers
end UniBus
